import JFlac.Sessions.Cleanup
import Mathlib

/-!
# The handle of a decoding session

`NativeFlacDecodingSession` guards a four-state machine with a lock, but decodes and releases
outside of it. The model has one step for each locked section and for each native call. Activations
are calls in progress: those of different threads, and those made from inside a consumer callback
while an outer decode of the same session is running.
-/

namespace JFlac.Sessions

/-! ## The locked sections -/

/-- `SessionState` of `NativeFlacDecodingSession`. -/
inductive DecodingState where
  | active
  | decoding
  | closed
  | failed
  deriving DecidableEq, Repr

/-- The fields of `NativeFlacDecodingSession` that change. -/
structure DecodingSession where
  state : DecodingState
  closeRequested : Bool
  cleanup : Cleanup
  deriving DecidableEq, Repr

namespace DecodingSession

/-- `beginDecode`; `none` stands for the `IllegalStateException`. -/
def beginDecode (p : DecodingSession) : Option (ℤ × DecodingSession) :=
  if p.state ≠ .active ∨ p.cleanup.currentHandle = 0 then none
  else some (p.cleanup.currentHandle, { p with state := .decoding })

/-- `finishDecode`: the handle to release, or zero. -/
def finishDecode (p : DecodingSession) : ℤ × DecodingSession :=
  if p.state ≠ .decoding then (0, p)
  else if p.closeRequested then
    (p.cleanup.claimHandle.1,
      { state := .closed, closeRequested := false, cleanup := p.cleanup.claimHandle.2 })
  else (0, { p with state := .active })

/-- `releaseAfterFailure`. -/
def releaseAfterFailure (p : DecodingSession) : ℤ × DecodingSession :=
  if p.state = .closed ∨ p.state = .failed ∨ p.cleanup.currentHandle = 0 then
    (0, { p with closeRequested := false })
  else
    (p.cleanup.claimHandle.1,
      { state := .failed, closeRequested := false, cleanup := p.cleanup.claimHandle.2 })

/-- `close`. -/
def close (p : DecodingSession) : ℤ × DecodingSession :=
  match p.state with
  | .active => (p.cleanup.claimHandle.1, { p with state := .closed, cleanup := p.cleanup.claimHandle.2 })
  | .decoding => (0, { p with closeRequested := true })
  | .closed | .failed => (p.cleanup.claimHandle.1, { p with cleanup := p.cleanup.claimHandle.2 })

/-- A `close` during a decode is remembered; any other one claims what the atomic holds. -/
theorem close_cases (p : DecodingSession) :
    (p.state = .decoding ∧ p.close = (0, { p with closeRequested := true })) ∨
    (p.state ≠ .decoding ∧ ∃ state, (state = .closed ∨ state = p.state ∧ p.state ≠ .active) ∧
      p.close = (p.cleanup.handle, { p with state := state, cleanup := ⟨0⟩ })) := by
  obtain ⟨state, closeRequested, cleanup⟩ := p
  cases state with
  | active => exact .inr ⟨nofun, .closed, .inl rfl, rfl⟩
  | decoding => exact .inl ⟨rfl, rfl⟩
  | closed => exact .inr ⟨nofun, .closed, .inl rfl, rfl⟩
  | failed => exact .inr ⟨nofun, .failed, .inr ⟨rfl, nofun⟩, rfl⟩

end DecodingSession

/-! ## The system -/

/-- Where a call stands between two steps. -/
inductive Phase where
  | idle
  /-- Between `beginDecode` and the end of the native decode. -/
  | decoding
  /-- Has claimed the handle and is about to call the releaser. -/
  | releasing (handle : ℤ)
  /-- The release has failed, and the handle is to be restored. -/
  | restoring (handle : ℤ)
  /-- The release has succeeded, and the Cleaner registration is to be removed. -/
  | cleaning
  /-- Runs the Cleaner action itself, from `cleanable.clean()`. -/
  | sweeping (handle : ℤ)
  deriving DecidableEq, Repr

/-- The handle an activation is responsible for. -/
def Phase.holds : Phase → Option ℤ
  | .releasing handle | .restoring handle | .sweeping handle => some handle
  | _ => none

/-- One session with the calls on it and the Cleaner. The last four fields are bookkeeping. -/
structure System (Activation : Type) where
  session : DecodingSession
  phase : Activation → Phase
  /-- The Cleaner action has run; it never runs twice. -/
  cleaned : Bool
  /-- The handle the Cleaner thread is releasing. -/
  cleaner : Option ℤ
  /-- How often a release has succeeded. -/
  released : ℕ
  /-- A release by the Cleaner action has failed. -/
  abandoned : Bool
  closeCalled : Bool
  decodeFailed : Bool

/-- An open session with its handle. -/
def System.initial {Activation : Type} (handle : ℤ) : System Activation :=
  { session := { state := .active, closeRequested := false, cleanup := ⟨handle⟩ }
    phase := fun _ => .idle, cleaned := false, cleaner := none, released := 0, abandoned := false
    closeCalled := false, decodeFailed := false }

/-- The steps. -/
inductive Action (Activation : Type) where
  | beginDecode (a : Activation)
  /-- The native decode has returned, and `finishDecode` runs. -/
  | decodeSucceeds (a : Activation)
  /-- A callback or the native decode has raised, and `releaseAfterFailure` runs. -/
  | decodeFails (a : Activation)
  | close (a : Activation)
  /-- The releaser returns or raises. -/
  | release (a : Activation) (success : Bool)
  | restore (a : Activation)
  | clean (a : Activation)
  | sweep (a : Activation) (success : Bool)
  /-- The Cleaner thread starts the action of a session that no call can reach. -/
  | cleanerRun
  | cleanerRelease (success : Bool)

variable {Activation : Type} [DecidableEq Activation]

/-- A call moves on to its next phase. -/
def System.setPhase (s : System Activation) (a : Activation) (p : Phase) : System Activation :=
  { s with phase := Function.update s.phase a p }

@[simp] theorem setPhase_released (s : System Activation) (a : Activation) (p : Phase) :
    (s.setPhase a p).released = s.released := rfl

/-- A claimed handle is to be released, zero is not. -/
def claimed (handle : ℤ) : Phase := if handle = 0 then .idle else .releasing handle

/-- The Cleaner action up to its release: the handle it has claimed. -/
def System.runCleanup (s : System Activation) : ℤ × System Activation :=
  (s.session.cleanup.claimHandle.1,
    { s with
      cleaned := true
      session := { s.session with cleanup := s.session.cleanup.claimHandle.2 } })

/-- The end of a release attempt by the Cleaner action, which swallows a failure. -/
def System.swept (s : System Activation) (success : Bool) : System Activation :=
  if success then { s with released := s.released + 1 } else { s with abandoned := true }

/-- One step of a call; `none` when the call is not at that point. -/
def step (s : System Activation) : Action Activation → Option (System Activation)
  | .beginDecode a =>
    match s.phase a with
    | .idle =>
      match s.session.beginDecode with
      | some (_, session) => some ({ s with session := session }.setPhase a .decoding)
      | none => some s
    | _ => none
  | .decodeSucceeds a =>
    match s.phase a with
    | .decoding =>
      some ({ s with session := s.session.finishDecode.2 }.setPhase a
        (claimed s.session.finishDecode.1))
    | _ => none
  | .decodeFails a =>
    match s.phase a with
    | .decoding =>
      some ({ s with session := s.session.releaseAfterFailure.2, decodeFailed := true }.setPhase a
        (claimed s.session.releaseAfterFailure.1))
    | _ => none
  | .close a =>
    match s.phase a with
    | .idle =>
      some ({ s with session := s.session.close.2, closeCalled := true }.setPhase a
        (claimed s.session.close.1))
    | _ => none
  | .release a success =>
    match s.phase a with
    | .releasing handle =>
      if success then some ({ s with released := s.released + 1 }.setPhase a .cleaning)
      else some (s.setPhase a (.restoring handle))
    | _ => none
  | .restore a =>
    match s.phase a with
    | .restoring handle =>
      let cleanup := (s.session.cleanup.restoreHandle handle).2
      some ({ s with session := { s.session with cleanup := cleanup } }.setPhase a .idle)
    | _ => none
  | .clean a =>
    match s.phase a with
    | .cleaning =>
      if s.cleaned then some (s.setPhase a .idle)
      else if s.runCleanup.1 = 0 then some (s.runCleanup.2.setPhase a .idle)
      else some (s.runCleanup.2.setPhase a (.sweeping s.runCleanup.1))
    | _ => none
  | .sweep a success =>
    match s.phase a with
    | .sweeping _ => some ((s.swept success).setPhase a .idle)
    | _ => none
  | .cleanerRun =>
    if s.cleaned ∨ s.cleaner.isSome then none
    else if s.runCleanup.1 = 0 then some s.runCleanup.2
    else some { s.runCleanup.2 with cleaner := some s.runCleanup.1 }
  | .cleanerRelease success =>
    match s.cleaner with
    | some _ => some { s.swept success with cleaner := none }
    | none => none

/-- A step the JVM can take: the Cleaner only runs once the session is unreachable, so that no call
is in flight. -/
def Step (s : System Activation) (action : Action Activation) (s' : System Activation) : Prop :=
  step s action = some s' ∧ (action = .cleanerRun → ∀ a, s.phase a = .idle)

/-- The states that some interleaving leads to. -/
inductive Reachable (handle : ℤ) : System Activation → Prop
  | initial : Reachable handle (.initial handle)
  | step (s s' : System Activation) (action : Action Activation) (h : Reachable handle s)
      (hstep : Step s action s') : Reachable handle s'

/-! ## Who owns the handle -/

/-- The party responsible for the handle. -/
inductive Owner (Activation : Type) where
  | slot
  | activation (a : Activation)
  | cleaner
  | released
  | abandoned

/-- What the atomic holds. -/
def Owner.slotValue (handle : ℤ) : Owner Activation → ℤ
  | .slot => handle
  | _ => 0

/-- What the Cleaner thread holds. -/
def Owner.cleanerValue (handle : ℤ) : Owner Activation → Option ℤ
  | .cleaner => some handle
  | _ => none

/-- The number of successful releases. -/
def Owner.releases : Owner Activation → ℕ
  | .released => 1
  | _ => 0

/-- Whether the Cleaner action has failed. -/
def Owner.isAbandoned : Owner Activation → Bool
  | .abandoned => true
  | _ => false

/-- Whether the Cleaner action is still to come. -/
def Owner.Retries : Owner Activation → Prop
  | .slot | .activation _ => True
  | _ => False

/-- What the phase of an activation says about the owner and the session state. -/
def Owner.Allows (handle : ℤ) (o : Owner Activation) (state : DecodingState) (a : Activation) :
    Phase → Prop
  | .idle => o ≠ .activation a
  | .decoding => o = .slot ∧ state = .decoding
  | .releasing x | .restoring x => o = .activation a ∧ x = handle
  | .cleaning => o = .released
  -- `cleanable.clean()` follows a successful release, so that it finds the atomic empty
  | .sweeping _ => False

/-- The state of the system when `o` is responsible for the handle. -/
structure Inv (handle : ℤ) (o : Owner Activation) (s : System Activation) : Prop where
  slot : s.session.cleanup.handle = o.slotValue handle
  cleaner : s.cleaner = o.cleanerValue handle
  released : s.released = o.releases
  abandoned : s.abandoned = o.isAbandoned
  retries : o.Retries → s.cleaned = false
  phases : ∀ a, o.Allows handle s.session.state a (s.phase a)
  running : s.session.state = .decoding → ∃ a, ∀ b, s.phase b = .decoding ↔ b = a
  closing : s.closeCalled = true → s.session.state ≠ .active ∧
    (s.session.state = .decoding → s.session.closeRequested = true)
  failing : s.decodeFailed = true → s.session.state = .closed ∨ s.session.state = .failed

omit [DecidableEq Activation] in
theorem inv_initial (handle : ℤ) :
    Inv handle .slot (System.initial handle : System Activation) :=
  ⟨rfl, rfl, rfl, rfl, fun _ => rfl, fun _ => nofun, nofun, nofun, nofun⟩

variable {handle : ℤ} {o : Owner Activation} {s : System Activation}

omit [DecidableEq Activation] in
/-- Without a running decode every phase but one is what it was. -/
theorem Owner.Allows.of_ne {o' : Owner Activation} {state state' : DecodingState} {b : Activation}
    {p : Phase} (h : o.Allows handle state b p) (hidle : o ≠ .activation b → o' ≠ .activation b)
    (howner : o = .activation b → o' = .activation b) (hreleased : o = .released → o' = .released)
    (hdecoding : p = .decoding → o' = .slot ∧ state' = .decoding) :
    o'.Allows handle state' b p := by
  cases p with
  | idle => exact hidle h
  | decoding => exact hdecoding rfl
  | releasing x => exact ⟨howner h.1, h.2⟩
  | restoring x => exact ⟨howner h.1, h.2⟩
  | sweeping x => exact h
  | cleaning => exact hreleased h

theorem claimed_of_ne (h : handle ≠ 0) : claimed handle = .releasing handle := if_neg h

theorem claimed_zero : claimed 0 = .idle := if_pos rfl

namespace Inv

omit [DecidableEq Activation] in
/-- An atomic that is not empty owns the handle. -/
theorem eq_slot (h : Inv handle o s) (hslot : s.session.cleanup.handle ≠ 0) :
    o = .slot ∧ s.session.cleanup.handle = handle := by
  rw [h.slot] at hslot ⊢
  cases o <;> simp_all [Owner.slotValue]

omit [DecidableEq Activation] in
/-- The activation that holds the handle owns it. -/
theorem owner_of_holds (h : Inv handle o s) {a : Activation} {x : ℤ}
    (ha : s.phase a = .releasing x ∨ s.phase a = .restoring x) :
    o = .activation a ∧ x = handle := by
  have hphase := h.phases a
  rcases ha with ha | ha <;> rw [ha] at hphase <;> exact hphase

omit [DecidableEq Activation] in
/-- With a running decode the handle rests in the atomic. -/
theorem of_decoding (h : Inv handle o s) {a : Activation} (ha : s.phase a = .decoding) :
    o = .slot ∧ s.session.state = .decoding ∧ ∀ b, s.phase b = .decoding → b = a := by
  have hphase := h.phases a
  rw [ha] at hphase
  obtain ⟨c, hc⟩ := h.running hphase.2
  refine ⟨hphase.1, hphase.2, fun b hb => ?_⟩
  rw [(hc b).mp hb, (hc a).mp ha]

/-- The phases after one activation moved. -/
theorem phases_setPhase {o' : Owner Activation} {state' : DecodingState} {a : Activation}
    {p : Phase} (hself : o'.Allows handle state' a p)
    (hother : ∀ b, b ≠ a → o'.Allows handle state' b (s.phase b)) (b : Activation) :
    o'.Allows handle state' b (Function.update s.phase a p b) := by
  by_cases hb : b = a
  · subst hb
    rw [Function.update_self]
    exact hself
  · rw [Function.update_of_ne hb]
    exact hother b hb

/-- An activation moves while the owner and the session stay as they are. -/
theorem setPhase (h : Inv handle o s) {a : Activation} {p : Phase}
    (hallows : o.Allows handle s.session.state a p) (hbefore : s.phase a ≠ .decoding)
    (hafter : p ≠ .decoding) : Inv handle o (s.setPhase a p) := by
  refine ⟨h.slot, h.cleaner, h.released, h.abandoned, h.retries,
    phases_setPhase hallows fun b _ => h.phases b, fun hstate => ?_, h.closing, h.failing⟩
  obtain ⟨c, hc⟩ := h.running hstate
  refine ⟨c, fun b => ?_⟩
  show Function.update s.phase a p b = .decoding ↔ b = c
  by_cases hb : b = a
  · subst hb
    rw [Function.update_self, ← hc b]
    exact ⟨fun hp => absurd hp hafter, fun hp => absurd hp hbefore⟩
  · rw [Function.update_of_ne hb]
    exact hc b

theorem beginDecode (h : Inv handle o s) {a : Activation}
    {session : DecodingSession} {x : ℤ} (hbegin : s.session.beginDecode = some (x, session)) :
    Inv handle .slot ({ s with session := session }.setPhase a .decoding) := by
  unfold DecodingSession.beginDecode at hbegin
  split at hbegin
  · cases hbegin
  rename_i hguard
  rw [not_or, not_not] at hguard
  obtain ⟨hactive, hslot⟩ := hguard
  obtain ⟨rfl, hhandle⟩ := h.eq_slot hslot
  cases hbegin
  have hnone : ∀ b, s.phase b ≠ .decoding := by
    intro b hb
    have hstate := (h.of_decoding hb).2.1
    rw [hactive] at hstate
    cases hstate
  refine ⟨h.slot, h.cleaner, h.released, h.abandoned, h.retries,
    phases_setPhase ⟨rfl, rfl⟩ fun b _ => (h.phases b).of_ne id id nofun (absurd · (hnone b)),
    fun _ => ⟨a, fun b => ?_⟩, fun hclose => absurd hactive (h.closing hclose).1, fun hfail => ?_⟩
  · show Function.update s.phase a .decoding b = .decoding ↔ b = a
    by_cases hb : b = a
    · simp [hb]
    · rw [Function.update_of_ne hb]
      exact ⟨fun hd => absurd hd (hnone b), fun hba => absurd hba hb⟩
  · rcases h.failing hfail with hstate | hstate <;> rw [hactive] at hstate <;> cases hstate

/-- The running decode ends, and its activation claims the handle. -/
theorem endDecode_claims (h : Inv handle o s) {a : Activation} (ha : s.phase a = .decoding)
    (hhandle : handle ≠ 0) {state : DecodingState} (hstate : state = .closed ∨ state = .failed)
    (closeRequested decodeFailed : Bool) :
    Inv handle (.activation a)
      ({ s with
        session := { state := state, closeRequested := closeRequested, cleanup := ⟨0⟩ }
        decodeFailed := decodeFailed }.setPhase a (claimed s.session.cleanup.handle)) := by
  obtain ⟨rfl, -, hunique⟩ := h.of_decoding ha
  have hslot : s.session.cleanup.handle = handle := h.slot
  have hnot : state ≠ .decoding ∧ state ≠ .active := by
    rcases hstate with rfl | rfl <;> exact ⟨nofun, nofun⟩
  rw [hslot, claimed_of_ne hhandle]
  refine ⟨rfl, h.cleaner, h.released, h.abandoned, fun _ => h.retries trivial,
    phases_setPhase ⟨rfl, rfl⟩ fun b hb => ?_, fun hd => absurd hd hnot.1,
    fun _ => ⟨hnot.2, fun hd => absurd hd hnot.1⟩, fun _ => hstate⟩
  refine (h.phases b).of_ne (fun _ hba => hb ?_) nofun nofun fun hd => absurd (hunique b hd) hb
  exact (Owner.activation.inj hba).symm

/-- The running decode ends, and the session can be used again. -/
theorem endDecode_keeps (h : Inv handle o s) {a : Activation} (ha : s.phase a = .decoding)
    (hclose : s.session.closeRequested ≠ true) :
    Inv handle o ({ s with session := { s.session with state := .active } }.setPhase a .idle) := by
  obtain ⟨rfl, hdecoding, hunique⟩ := h.of_decoding ha
  refine ⟨h.slot, h.cleaner, h.released, h.abandoned, h.retries,
    phases_setPhase nofun fun b hb => (h.phases b).of_ne id id nofun fun hd =>
      absurd (hunique b hd) hb, nofun, fun hcalled => ?_, fun hfail => ?_⟩
  · exact absurd ((h.closing hcalled).2 hdecoding) hclose
  · rcases h.failing hfail with hstate | hstate <;> rw [hdecoding] at hstate <;> cases hstate

/-- A `close` that may claim the handle. -/
theorem closeClaim (h : Inv handle o s) {a : Activation} (ha : s.phase a = .idle)
    (hhandle : handle ≠ 0) (hbefore : s.session.state ≠ .decoding) {state : DecodingState}
    (hstate : state = .closed ∨ state = s.session.state ∧ s.session.state ≠ .active) :
    ∃ o', Inv handle o' ({ s with
      session := { s.session with state := state, cleanup := ⟨0⟩ }
      closeCalled := true }.setPhase a (claimed s.session.cleanup.handle)) := by
  have hnone : ∀ b, s.phase b ≠ .decoding := fun b hb => hbefore (h.of_decoding hb).2.1
  have hnot : state ≠ .decoding ∧ state ≠ .active := by
    rcases hstate with rfl | ⟨rfl, hactive⟩
    · exact ⟨nofun, nofun⟩
    · exact ⟨hbefore, hactive⟩
  have hfailing : s.decodeFailed = true → state = .closed ∨ state = .failed := by
    intro hfail
    rcases hstate with rfl | ⟨rfl, -⟩
    · exact .inl rfl
    · exact h.failing hfail
  by_cases hslot : s.session.cleanup.handle = 0
  · refine ⟨o, ?_⟩
    have hzero : (⟨0⟩ : Cleanup).handle = o.slotValue handle := hslot.symm.trans h.slot
    have hidle := h.phases a
    rw [ha] at hidle
    rw [hslot, claimed_zero]
    exact ⟨hzero, h.cleaner, h.released, h.abandoned, h.retries,
      phases_setPhase hidle fun b _ => (h.phases b).of_ne id id id (absurd · (hnone b)),
      fun hd => absurd hd hnot.1, fun _ => ⟨hnot.2, fun hd => absurd hd hnot.1⟩, hfailing⟩
  · obtain ⟨rfl, hvalue⟩ := h.eq_slot hslot
    refine ⟨.activation a, ?_⟩
    rw [hvalue, claimed_of_ne hhandle]
    refine ⟨rfl, h.cleaner, h.released, h.abandoned, fun _ => h.retries trivial,
      phases_setPhase ⟨rfl, rfl⟩ fun b hb => ?_, fun hd => absurd hd hnot.1,
      fun _ => ⟨hnot.2, fun hd => absurd hd hnot.1⟩, hfailing⟩
    refine (h.phases b).of_ne (fun _ hba => hb ?_) nofun nofun (absurd · (hnone b))
    exact (Owner.activation.inj hba).symm

theorem close (h : Inv handle o s) {a : Activation} (ha : s.phase a = .idle)
    (hhandle : handle ≠ 0) :
    ∃ o', Inv handle o' ({ s with session := s.session.close.2, closeCalled := true }.setPhase a
      (claimed s.session.close.1)) := by
  rcases s.session.close_cases with ⟨hstate, hclose⟩ | ⟨hstate, state, hnext, hclose⟩
  · -- the close is left to the end of the running decode
    rw [hclose, claimed_zero]
    have hidle := h.phases a
    rw [ha] at hidle
    have hsame : Inv handle o (s.setPhase a .idle) :=
      h.setPhase hidle (by rw [ha]; nofun) nofun
    refine ⟨o, hsame.slot, h.cleaner, h.released, h.abandoned, h.retries, hsame.phases,
      hsame.running, fun _ => ⟨?_, fun _ => rfl⟩, h.failing⟩
    show s.session.state ≠ .active
    rw [hstate]
    nofun
  · rw [hclose]
    exact h.closeClaim ha hhandle hstate hnext

theorem release (h : Inv handle o s) {a : Activation} {x : ℤ} (ha : s.phase a = .releasing x) :
    Inv handle .released ({ s with released := s.released + 1 }.setPhase a .cleaning) := by
  obtain ⟨rfl, rfl⟩ := h.owner_of_holds (.inl ha)
  have hnone : ∀ b, s.phase b ≠ .decoding := fun b hb => nomatch (h.of_decoding hb).1
  have hcount : s.released = 0 := h.released
  refine ⟨h.slot, h.cleaner, by rw [setPhase_released, hcount]; rfl, h.abandoned, nofun,
    phases_setPhase rfl fun b hb => ?_, fun hd => ?_, h.closing, h.failing⟩
  · refine (h.phases b).of_ne nofun (fun hba => ?_) nofun (absurd · (hnone b))
    exact absurd (Owner.activation.inj hba).symm hb
  · obtain ⟨c, hc⟩ := h.running hd
    exact absurd ((hc c).mpr rfl) (hnone c)

theorem restore (h : Inv handle o s) {a : Activation} {x : ℤ} (ha : s.phase a = .restoring x)
    (hhandle : handle ≠ 0) :
    Inv handle .slot ({ s with
      session := { s.session with cleanup := (s.session.cleanup.restoreHandle x).2 } }.setPhase a
        .idle) := by
  obtain ⟨rfl, rfl⟩ := h.owner_of_holds (.inr ha)
  have hnone : ∀ b, s.phase b ≠ .decoding := fun b hb => nomatch (h.of_decoding hb).1
  have hempty : s.session.cleanup = ⟨0⟩ := by
    have hslot := h.slot
    cases hcleanup : s.session.cleanup
    rw [hcleanup] at hslot
    exact congrArg Cleanup.mk hslot
  rw [hempty, Cleanup.restoreHandle_zero hhandle]
  refine ⟨rfl, h.cleaner, h.released, h.abandoned, fun _ => h.retries trivial,
    phases_setPhase nofun fun b hb => ?_, fun hd => ?_, h.closing, h.failing⟩
  · refine (h.phases b).of_ne nofun (fun hba => ?_) nofun (absurd · (hnone b))
    exact absurd (Owner.activation.inj hba).symm hb
  · obtain ⟨c, hc⟩ := h.running hd
    exact absurd ((hc c).mpr rfl) (hnone c)

omit [DecidableEq Activation] in
/-- The Cleaner action has been used, and its handle is with `o'`. -/
theorem ran (h : Inv handle o s) {o' : Owner Activation} (hnone : ∀ a, s.phase a ≠ .decoding)
    (hslot : o'.slotValue handle = 0) (hreleased : o'.releases = o.releases)
    (habandoned : o'.isAbandoned = o.isAbandoned) (hretries : ¬ o'.Retries)
    (howner : ∀ a, (o = .activation a ↔ o' = .activation a))
    (hreleasing : o = .released → o' = .released) :
    Inv handle o' { s.runCleanup.2 with cleaner := o'.cleanerValue handle } := by
  refine ⟨hslot.symm, rfl, h.released.trans hreleased.symm, h.abandoned.trans habandoned.symm,
    (absurd · hretries), fun b => (h.phases b).of_ne (fun hn => ?_) (howner b).mp hreleasing
      (absurd · (hnone b)), fun hd => ?_, h.closing, h.failing⟩
  · exact fun hb => hn ((howner b).mpr hb)
  · obtain ⟨c, hc⟩ := h.running hd
    exact absurd ((hc c).mpr rfl) (hnone c)

omit [DecidableEq Activation] in
/-- A Cleaner action that finds the handle claimed. -/
theorem ranEmpty (h : Inv handle o s) (hretries : ¬ o.Retries) (hslot : o.slotValue handle = 0)
    (hnone : ∀ a, s.phase a ≠ .decoding) : Inv handle o s.runCleanup.2 := by
  have hran := h.ran hnone hslot rfl rfl hretries (fun _ => Iff.rfl) id
  rw [← h.cleaner] at hran
  exact hran

omit [DecidableEq Activation] in
theorem cleanerRelease (h : Inv handle o s) {x : ℤ} (hcleaner : s.cleaner = some x)
    (success : Bool) :
    Inv handle (if success then .released else .abandoned)
      { s.swept success with cleaner := none } := by
  have howner : o = .cleaner := by
    rw [h.cleaner] at hcleaner
    cases o <;> first | rfl | cases hcleaner
  subst howner
  have hnone : ∀ b, s.phase b ≠ .decoding := fun b hb => nomatch (h.of_decoding hb).1
  have hrunning : s.session.state = .decoding → ∃ a, ∀ b, s.phase b = .decoding ↔ b = a := by
    intro hd
    obtain ⟨c, hc⟩ := h.running hd
    exact absurd ((hc c).mpr rfl) (hnone c)
  have hcount : s.released = 0 := h.released
  have habandoned : s.abandoned = false := h.abandoned
  cases success with
  | true =>
    have hone : s.released + 1 = 1 := by omega
    exact ⟨h.slot, rfl, hone, habandoned, nofun,
      fun b => (h.phases b).of_ne nofun nofun nofun (absurd · (hnone b)), hrunning, h.closing,
      h.failing⟩
  | false =>
    exact ⟨h.slot, rfl, hcount, rfl, nofun,
      fun b => (h.phases b).of_ne nofun nofun nofun (absurd · (hnone b)), hrunning, h.closing,
      h.failing⟩

end Inv

/-- Every step hands the handle on to a single party. -/
theorem inv_step (h : Inv handle o s) (hhandle : handle ≠ 0) {action : Action Activation}
    {s' : System Activation} (hstep : Step s action s') : ∃ o', Inv handle o' s' := by
  obtain ⟨hstep, hquiet⟩ := hstep
  cases action with
  | beginDecode a =>
    simp only [step] at hstep
    split at hstep <;> try cases hstep
    split at hstep
    · obtain rfl := Option.some.inj hstep
      exact ⟨_, h.beginDecode ‹_›⟩
    · obtain rfl := Option.some.inj hstep
      exact ⟨o, h⟩
  | decodeSucceeds a =>
    simp only [step] at hstep
    split at hstep <;> try cases hstep
    rename_i ha
    obtain ⟨rfl, hdecoding, -⟩ := h.of_decoding ha
    have hslot : s.session.cleanup.handle = handle := h.slot
    unfold DecodingSession.finishDecode
    rw [if_neg (by simp [hdecoding])]
    by_cases hclose : s.session.closeRequested = true
    · rw [if_pos hclose]
      exact ⟨_, h.endDecode_claims ha hhandle (.inl rfl) false s.decodeFailed⟩
    · rw [if_neg hclose]
      have hended := h.endDecode_keeps ha hclose
      rw [← claimed_zero] at hended
      exact ⟨_, hended⟩
  | decodeFails a =>
    simp only [step] at hstep
    split at hstep <;> try cases hstep
    rename_i ha
    obtain ⟨rfl, hdecoding, -⟩ := h.of_decoding ha
    have hslot : s.session.cleanup.handle = handle := h.slot
    unfold DecodingSession.releaseAfterFailure
    rw [if_neg (by simp [hdecoding, Cleanup.currentHandle, hslot, hhandle])]
    exact ⟨_, h.endDecode_claims ha hhandle (.inr rfl) false true⟩
  | close a =>
    simp only [step] at hstep
    split at hstep <;> try cases hstep
    exact h.close ‹_› hhandle
  | release a success =>
    simp only [step] at hstep
    split at hstep <;> try cases hstep
    rename_i x ha
    split at hstep <;> cases hstep
    · exact ⟨_, h.release ha⟩
    · obtain ⟨howner, rfl⟩ := h.owner_of_holds (.inl ha)
      exact ⟨o, h.setPhase ⟨howner, rfl⟩ (by rw [ha]; nofun) nofun⟩
  | restore a =>
    simp only [step] at hstep
    split at hstep <;> cases hstep
    exact ⟨_, h.restore ‹_› hhandle⟩
  | clean a =>
    simp only [step] at hstep
    split at hstep <;> try cases hstep
    rename_i ha
    have howner := h.phases a
    rw [ha] at howner
    obtain rfl : o = .released := howner
    have hnone : ∀ b, s.phase b ≠ .decoding := fun b hb => nomatch (h.of_decoding hb).1
    have hempty : s.runCleanup.1 = 0 := h.slot
    split at hstep
    · cases hstep
      exact ⟨_, h.setPhase nofun (by rw [ha]; nofun) nofun⟩
    · cases hstep
      exact ⟨_, (h.ranEmpty nofun rfl hnone).setPhase nofun
        (by show s.phase a ≠ .decoding; rw [ha]; nofun) nofun⟩
  | sweep a success =>
    simp only [step] at hstep
    split at hstep <;> cases hstep
    rename_i ha
    have hphase := h.phases a
    rw [ha] at hphase
    exact hphase.elim
  | cleanerRun =>
    simp only [step] at hstep
    split at hstep
    · cases hstep
    rename_i hguard
    have hidle := hquiet rfl
    have hnone : ∀ b, s.phase b ≠ .decoding := fun b => by rw [hidle b]; nofun
    have hnobody : ∀ a, o ≠ .activation a := fun a => by
      have hphase := h.phases a
      rwa [hidle a] at hphase
    split at hstep
    · rename_i hempty
      obtain rfl := Option.some.inj hstep
      have hvalue : o.slotValue handle = 0 := h.slot.symm.trans hempty
      refine ⟨o, h.ranEmpty ?_ hvalue hnone⟩
      cases o with
      | slot => exact absurd hvalue hhandle
      | activation a => exact absurd rfl (hnobody a)
      | _ => nofun
    · rename_i hfull
      obtain rfl := Option.some.inj hstep
      obtain ⟨rfl, hvalue⟩ := h.eq_slot hfull
      have hran : Inv handle .cleaner { s.runCleanup.2 with cleaner := some handle } :=
        h.ran hnone rfl rfl rfl nofun (fun a => by simp) nofun
      refine ⟨.cleaner, ?_⟩
      show Inv handle .cleaner { s.runCleanup.2 with cleaner := some s.session.cleanup.handle }
      rw [hvalue]
      exact hran
  | cleanerRelease success =>
    simp only [step] at hstep
    split at hstep <;> cases hstep
    exact ⟨_, h.cleanerRelease ‹_› success⟩

theorem Reachable.inv (hhandle : handle ≠ 0) (h : Reachable handle s) : ∃ o, Inv handle o s := by
  induction h with
  | initial => exact ⟨.slot, inv_initial handle⟩
  | step s s' action _ hstep ih =>
    obtain ⟨o, ho⟩ := ih
    exact inv_step ho hhandle hstep

/-! ## Safety -/

/-- The parties that can own a handle. -/
inductive Party (Activation : Type) where
  | cleanup
  | activation (a : Activation)
  | cleaner

/-- The handle a party owns. -/
def System.owns (s : System Activation) (x : ℤ) : Party Activation → Prop
  | .cleanup => s.session.cleanup.handle = x ∧ x ≠ 0
  | .activation a => (s.phase a).holds = some x
  | .cleaner => s.cleaner = some x

/-- No call is in flight. -/
def System.Idle (s : System Activation) : Prop := (∀ a, s.phase a = .idle) ∧ s.cleaner = none

/-- What holds of the handle in every state. -/
structure HandleSafe (handle : ℤ) (s : System Activation) : Prop where
  /-- At most one party owns the handle. -/
  oneOwner : ∀ p q x y, s.owns x p → s.owns y q → p = q ∧ x = handle ∧ y = handle
  /-- No release is invoked while a decode is in flight. -/
  quiet : ∀ a, s.phase a = .decoding → (∀ b, (s.phase b).holds = none) ∧ s.cleaner = none
  /-- A close during a decode is left to its end. -/
  deferred : ∀ a b s', s.phase a = .decoding → Step s (.close b) s' →
    s'.phase b = .idle ∧ s'.session.closeRequested = true
  /-- The end of a decode carries out the close, and a failure always does. -/
  carriedOut : ∀ a s', s.phase a = .decoding →
    (s.session.closeRequested = true → Step s (.decodeSucceeds a) s' →
      s'.phase a = .releasing handle) ∧
    (Step s (.decodeFails a) s' → s'.phase a = .releasing handle)
  /-- A release succeeds at most once. -/
  once : s.released ≤ 1
  /-- Until then the handle is still there to be released, and the Cleaner is still to come. -/
  kept : s.Idle → s.released = 0 → s.abandoned = false →
    s.session.cleanup.handle = handle ∧ s.cleaned = false ∧
      ∀ a s', Step s (.close a) s' → s'.phase a = .releasing handle
  /-- No decode starts after a close or a failure. -/
  ended : ∀ a s', Step s (.beginDecode a) s' → s'.phase a = .decoding →
    s.closeCalled = false ∧ s.decodeFailed = false

omit [DecidableEq Activation] in
theorem Inv.owner_of_owns (h : Inv handle o s) {p : Party Activation} {x : ℤ}
    (hp : s.owns x p) : x = handle ∧
      o = match p with
        | .cleanup => .slot
        | .activation a => .activation a
        | .cleaner => .cleaner := by
  cases p with
  | cleanup =>
    obtain ⟨rfl, hx⟩ := hp
    exact ⟨(h.eq_slot hx).2, (h.eq_slot hx).1⟩
  | activation a =>
    have hphase := h.phases a
    simp only [System.owns] at hp
    cases ha : s.phase a <;> rw [ha] at hp hphase <;> cases hp
    · exact ⟨hphase.2, hphase.1⟩
    · exact ⟨hphase.2, hphase.1⟩
    · exact hphase.elim
  | cleaner =>
    have hcleaner := h.cleaner.symm.trans hp
    cases o <;> cases hcleaner
    exact ⟨rfl, rfl⟩

theorem Inv.handleSafe (h : Inv handle o s) (hhandle : handle ≠ 0) : HandleSafe handle s where
  oneOwner p q x y hp hq := by
    obtain ⟨rfl, hp⟩ := h.owner_of_owns hp
    obtain ⟨rfl, hq⟩ := h.owner_of_owns hq
    have hsame := hp.symm.trans hq
    cases p <;> cases q <;> first | exact ⟨rfl, rfl, rfl⟩ | cases hsame
    exact ⟨rfl, rfl, rfl⟩
  quiet a ha := by
    obtain ⟨rfl, -, -⟩ := h.of_decoding ha
    refine ⟨fun b => ?_, h.cleaner⟩
    have hphase := h.phases b
    cases hb : s.phase b with
    | releasing x => rw [hb] at hphase; cases hphase.1
    | restoring x => rw [hb] at hphase; cases hphase.1
    | sweeping x => rw [hb] at hphase; exact hphase.elim
    | _ => rfl
  deferred a b s' ha hstep := by
    obtain ⟨-, hdecoding, -⟩ := h.of_decoding ha
    obtain ⟨hclose, -⟩ := hstep
    simp only [step] at hclose
    split at hclose <;> cases hclose
    rcases s.session.close_cases with ⟨-, heq⟩ | ⟨hstate, -⟩
    · rw [heq, claimed_zero]
      exact ⟨Function.update_self _ _ _, rfl⟩
    · exact absurd hdecoding hstate
  carriedOut a s' ha := by
    obtain ⟨rfl, hdecoding, -⟩ := h.of_decoding ha
    have hslot : s.session.cleanup.handle = handle := h.slot
    refine ⟨fun hclose hstep => ?_, fun hstep => ?_⟩
    · obtain ⟨hstep, -⟩ := hstep
      simp only [step, ha, Option.some.injEq] at hstep
      rw [← hstep]
      unfold DecodingSession.finishDecode
      rw [if_neg (by simp [hdecoding]), if_pos hclose, Cleanup.claimHandle_fst, hslot,
        claimed_of_ne hhandle]
      exact Function.update_self _ _ _
    · obtain ⟨hstep, -⟩ := hstep
      simp only [step, ha, Option.some.injEq] at hstep
      rw [← hstep]
      unfold DecodingSession.releaseAfterFailure
      rw [if_neg (by simp [hdecoding, Cleanup.currentHandle, hslot, hhandle]),
        Cleanup.claimHandle_fst, hslot, claimed_of_ne hhandle]
      exact Function.update_self _ _ _
  once := by
    rw [h.released]
    cases o <;> simp [Owner.releases]
  kept hidle hreleased habandoned := by
    have howner : o = .slot := by
      have hcount := h.released.symm.trans hreleased
      have hlost := h.abandoned.symm.trans habandoned
      have hcleaner := h.cleaner.symm.trans hidle.2
      cases o with
      | slot => rfl
      | activation a =>
        have hphase := h.phases a
        rw [hidle.1 a] at hphase
        exact absurd rfl hphase
      | cleaner => cases hcleaner
      | released => cases hcount
      | abandoned => cases hlost
    subst howner
    have hslot : s.session.cleanup.handle = handle := h.slot
    refine ⟨hslot, h.retries trivial, fun a s' hstep => ?_⟩
    obtain ⟨hclose, -⟩ := hstep
    simp only [step, hidle.1 a, Option.some.injEq] at hclose
    rw [← hclose]
    rcases s.session.close_cases with ⟨hstate, -⟩ | ⟨-, state, -, heq⟩
    · obtain ⟨b, hb⟩ := h.running hstate
      have hdecoding := (hb b).mpr rfl
      rw [hidle.1 b] at hdecoding
      cases hdecoding
    · rw [heq, hslot, claimed_of_ne hhandle]
      exact Function.update_self _ _ _
  ended a s' hstep hstarted := by
    obtain ⟨hbegin, -⟩ := hstep
    simp only [step] at hbegin
    split at hbegin <;> try cases hbegin
    rename_i ha
    have hactive : s.session.state = .active := by
      unfold DecodingSession.beginDecode at hbegin
      by_contra hstate
      rw [if_pos (.inl hstate)] at hbegin
      obtain rfl := Option.some.inj hbegin
      rw [ha] at hstarted
      cases hstarted
    refine ⟨?_, ?_⟩
    · by_contra hclose
      exact (h.closing (by simpa using hclose)).1 hactive
    · by_contra hfail
      rcases h.failing (by simpa using hfail) with hstate | hstate <;> rw [hactive] at hstate <;>
        cases hstate

/-- **The handle of a decoding session.** In every interleaving of decodes, closes, failing releases
and the Cleaner, the handle has one owner, is released at most once and never during a decode, and
stays available until it is released. -/
theorem decodingSession_handleSafe (hhandle : handle ≠ 0) (h : Reachable handle s) :
    HandleSafe handle s := by
  obtain ⟨o, ho⟩ := h.inv hhandle
  exact ho.handleSafe hhandle

/-- A close from inside a decode, whose first release fails. -/
theorem decodingSession_handleSafe_closeInside :
    ∃ s : System Bool, Reachable 5 s ∧ s.session.cleanup.handle = 5 ∧ HandleSafe 5 s := by
  have h : Reachable 5 _ :=
    .step _ _ (.restore false) (.step _ _ (.release false false) (.step _ _ (.decodeSucceeds false)
      (.step _ _ (.close true) (.step _ _ (.beginDecode false) .initial ⟨rfl, nofun⟩)
        ⟨rfl, nofun⟩) ⟨rfl, nofun⟩) ⟨rfl, nofun⟩) ⟨rfl, nofun⟩
  exact ⟨_, h, rfl, decodingSession_handleSafe (by decide) h⟩

end JFlac.Sessions
