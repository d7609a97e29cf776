import JFlac.Handles.Invariant

/-!
# Safety of the handle registries

Every step of the system keeps the invariant, so it holds after every run. `registries_safe` reads
the guarantees of the two registries off it: live handles are distinct positive values whatever
happened, and as long as no handle value had to be reused, a session is never destroyed under an
operation, a removed session is destroyed exactly once, and a stale handle leads nowhere.
-/

namespace JFlac.Handles

open Lib (run run_invariant run_history_invariant)

variable {Activation : Type} [DecidableEq Activation]

/-! ## Every step keeps the invariant -/

/-- The steps that rewrite one session record and leave its destruction count alone. -/
theorem setSession_setPhase (s : System Activation) (id : ℕ) (x : Session) (a : Activation)
    (p : Phase) : ({ s with registry := s.registry.setSession id x }.setPhase a p) =
      s.rewrite id x (s.destroyed id) a p := by
  rw [System.rewrite, Function.update_eq_self]

theorem acquireOf_ok {kind : Kind} {r r' : Registry} {handle : ℤ} {id : ℕ}
    (h : acquireOf kind r handle = (.ok id, r')) :
    ∃ inactive, acquire inactive r handle = (.ok id, r') := by
  cases kind with
  | decoder => exact ⟨_, h⟩
  | encoder => exact ⟨_, h⟩

theorem acquireOf_error {kind : Kind} {r r' : Registry} {handle : ℤ} {t : Throwable}
    (h : acquireOf kind r handle = (.error t, r')) : r' = r := by
  cases kind with
  | decoder => exact (acquire_error h).2
  | encoder => exact (acquire_error h).2

omit [DecidableEq Activation] in
theorem stageStep_refl (s : System Activation) : StageStep s s := fun _ st h => ⟨st, h, .inl rfl⟩

/-- A phase change that keeps every hold and every destruction order is invisible. -/
theorem stageStep_setPhase {s : System Activation} {a : Activation} {p : Phase}
    (hholds : ∀ i, p.Holds i ↔ (s.phase a).Holds i)
    (hdestroying : ∀ i, p = .destroying i ↔ s.phase a = .destroying i) :
    StageStep s (s.setPhase a p) := by
  intro i st hin
  refine ⟨st, hin.frame Iff.rfl Iff.rfl rfl rfl (fun b => ?_) (fun b => ?_), .inl rfl⟩
  · by_cases hb : b = a
    · subst hb; rw [setPhase_phase_self]; exact hholds i
    · rw [setPhase_phase_of_ne s p hb]
  · by_cases hb : b = a
    · subst hb; rw [setPhase_phase_self]; exact hdestroying i
    · rw [setPhase_phase_of_ne s p hb]

/-- Entering an operation, for `acquire` and for `finishEncoder` alike. -/
theorem inv_enter {kind : Kind} {s : System Activation} (h : Inv s) {a : Activation} {handle : ℤ}
    {id : ℕ} {r : Registry} {p : Phase} (hidle : s.phase a = .idle)
    (hacq : acquireOf kind s.registry handle = (.ok id, r))
    (hp : p = .holding id ∨ p = .finishing id handle) :
    Inv ({ s with registry := r }.setPhase a p) ∧
      StageStep s ({ s with registry := r }.setPhase a p) := by
  obtain ⟨inactive, hacq⟩ := acquireOf_ok hacq
  obtain ⟨-, ⟨e, he, hh, hid⟩, -, huse, -, rfl⟩ := acquire_ok hacq
  have howner : (s.registry.sessions id).handle = handle := by
    rw [← hid, h.handle_owner e he, hh]
  rw [setSession_setPhase]
  exact inv_take h hidle (howner ▸ hp) ⟨e, he, hid⟩ huse rfl

/-- `finishEncoder` removes the handle it was called with: its own session, if that is still
linked, and another one only after the counter has wrapped. -/
theorem inv_removeFinishing {s : System Activation} (h : Inv s) {a : Activation} {id : ℕ}
    {handle : ℤ} (hphase : s.phase a = .finishing id handle) :
    let s' := { s with registry := (remove s.registry handle).2
                       removed := s.removed ++ removedBy s.registry handle }.setPhase a (.holding id)
    Inv s' ∧ StageStep s s' := by
  intro s'
  have hholds : ∀ i, Phase.Holds (.holding id) i ↔ (s.phase a).Holds i := by simp [hphase]
  have hdestroying : ∀ i, Phase.holding id = .destroying i ↔ s.phase a = .destroying i := by
    simp [hphase]
  have hfin : ∀ b i hd, (s.setPhase a (.holding id)).phase b = .finishing i hd →
      (s.registry.sessions i).handle = hd := by
    intro b i hd hb
    by_cases hba : b = a
    · subst hba; simp at hb
    · rw [setPhase_phase_of_ne s _ hba] at hb
      exact h.finishing_handle b i hd hb
  by_cases hfound : 0 < handle ∧ findEntryLocked s.registry.entries handle ≠ none
  · obtain ⟨hpos, hne⟩ := hfound
    obtain ⟨e, he⟩ := Option.ne_none_iff_exists'.mp hne
    obtain ⟨hmem, rfl⟩ := findEntryLocked_eq_some he
    obtain ⟨hby, hrm⟩ := remove_of_found hpos he
    have hs' : s' = s.unlink e a (.holding id) := by
      simp only [s', hby, hrm, System.unlink]
    rw [hs']
    refine inv_unlink h hmem (fun i b => ?_) (fun i b => ?_) (by simp) (fun _ hrefs => ?_) hfin
    · by_cases hb : b = a
      · subst hb
        rw [System.unlink, setPhase_phase_self]; exact hholds i
      · rw [System.unlink, setPhase_phase_of_ne _ _ hb]
    · by_cases hb : b = a
      · subst hb
        rw [System.unlink, setPhase_phase_self]; simp [hphase]
      · rw [System.unlink, setPhase_phase_of_ne _ _ hb]; simp
    · -- the activation holds `id`, so a session without reference is another one
      by_contra hle
      obtain ⟨hseq, -⟩ := h.sequential (not_lt.mp hle)
      obtain ⟨st, hin, -⟩ := h.stage id
      obtain ⟨r, rfl⟩ := (hin.holders a).mp (by simp [hphase])
      obtain ⟨st₂, hin₂, -⟩ := h.stage e.session
      obtain rfl := hin₂.eq_idle ⟨e, hmem, rfl⟩ hrefs
      have h₁ := h.finishing_handle a id e.handle hphase
      rw [hseq id (hin.allocated.mpr (by simp)), ← h.handle_owner e hmem,
        hseq _ (hin₂.allocated.mpr (by simp))] at h₁
      obtain rfl : id = e.session := by omega
      simp [hin.references, Stage.references] at hrefs
  · have hnot : handle ≤ 0 ∨ findEntryLocked s.registry.entries handle = none := by
      rcases not_and_or.mp hfound with hle | hnone
      · exact .inl (not_lt.mp hle)
      · exact .inr (not_not.mp hnone)
    obtain ⟨hrm, hby⟩ := remove_of_not_found hnot
    have hs' : s' = s.setPhase a (.holding id) := by
      simp only [s', hby, hrm, List.append_nil]
    rw [hs']
    have hst := stageStep_setPhase hholds hdestroying
    exact ⟨h.of_shrinks ⟨List.Sublist.refl _, rfl, rfl, rfl, fun _ => rfl, fun _ hr => hr⟩ hst hfin
      fun hd hm => .inl hm, hst⟩

/-- `releaseDecoder` and `releaseEncoder` take a handle out and destroy the session when no
operation is inside it. -/
theorem inv_remove {kind : Kind} {s s' : System Activation} (h : Inv s) {a : Activation}
    {handle : ℤ} (hs' : step kind s (.remove a handle) = some s') : Inv s' ∧ StageStep s s' := by
  simp only [step] at hs'
  split at hs'
  · rename_i hidle
    by_cases hfound : 0 < handle ∧ findEntryLocked s.registry.entries handle ≠ none
    · obtain ⟨hpos, hne⟩ := hfound
      obtain ⟨e, he⟩ := Option.ne_none_iff_exists'.mp hne
      obtain ⟨hmem, rfl⟩ := findEntryLocked_eq_some he
      obtain ⟨hby, hrm⟩ := remove_of_found hpos he
      obtain ⟨p, hp, rfl⟩ : ∃ p, p = (if (s.registry.sessions e.session).referenceCount = 0 then
          Phase.destroying e.session else .idle) ∧ s' = s.unlink e a p := by
        rw [hby, hrm] at hs'
        by_cases hrefs : (s.registry.sessions e.session).referenceCount = 0
        · exact ⟨.destroying e.session, by rw [if_pos hrefs], by
            simpa [hrefs, System.unlink, eq_comm] using hs'⟩
        · refine ⟨.idle, by rw [if_neg hrefs], ?_⟩
          have hself : Function.update s.phase a .idle = s.phase := by
            rw [← hidle, Function.update_eq_self]
          simpa [hrefs, System.unlink, System.setPhase, hself, eq_comm] using hs'
      refine inv_unlink h hmem (fun i b => ?_) (fun i b => ?_) (fun hd => ?_) (fun hd hrefs => ?_)
        fun b i hd hb => ?_
      · by_cases hb : b = a
        · subst hb
          rw [System.unlink, setPhase_phase_self, hp, hidle]
          split <;> simp
        · rw [System.unlink, setPhase_phase_of_ne _ _ hb]
      · by_cases hb : b = a
        · subst hb
          rw [System.unlink, setPhase_phase_self, hp, hidle]
          split <;> simp [eq_comm]
        · rw [System.unlink, setPhase_phase_of_ne _ _ hb]; simp [hb]
      · by_contra hrefs
        rw [hp, if_neg hrefs] at hd
        simp at hd
      · rw [hp, if_pos hrefs] at hd
        exact absurd rfl hd
      · by_cases hba : b = a
        · subst hba
          rw [System.unlink, setPhase_phase_self, hp] at hb
          split at hb <;> simp at hb
        · rw [System.unlink, setPhase_phase_of_ne _ _ hba] at hb
          exact h.finishing_handle b i hd hb
    · have hnot : handle ≤ 0 ∨ findEntryLocked s.registry.entries handle = none := by
        rcases not_and_or.mp hfound with hle | hnone
        · exact .inl (not_lt.mp hle)
        · exact .inr (not_not.mp hnone)
      obtain ⟨hrm, hby⟩ := remove_of_not_found hnot
      obtain rfl : s = s' := by simpa [hrm, hby] using hs'
      exact ⟨h, stageStep_refl s⟩
  · simp at hs'

/-- Every atomic step keeps the invariant and moves the sessions along their lifecycle. -/
theorem inv_step {kind : Kind} {s s' : System Activation} {act : Action Activation} (h : Inv s)
    (hs' : step kind s act = some s') : Inv s' ∧ StageStep s s' := by
  cases act with
  | register =>
    simp only [step, Option.map_eq_some_iff] at hs'
    obtain ⟨⟨handle, r⟩, hreg, rfl⟩ := hs'
    exact inv_register h hreg
  | acquire a handle =>
    simp only [step] at hs'
    split at hs'
    · rename_i hidle
      split at hs'
      · rename_i id r hacq
        obtain rfl := Option.some.inj hs'
        exact inv_enter h hidle hacq (.inl rfl)
      · rename_i t r hacq
        obtain rfl := acquireOf_error hacq
        obtain rfl := Option.some.inj hs'
        exact ⟨h, stageStep_refl s⟩
    · simp at hs'
  | beginFinish a handle =>
    simp only [step] at hs'
    split at hs'
    · rename_i hidle
      split at hs'
      · rename_i id r hacq
        obtain rfl := Option.some.inj hs'
        exact inv_enter h hidle hacq (.inr rfl)
      · rename_i t r hacq
        obtain rfl := acquireOf_error hacq
        obtain rfl := Option.some.inj hs'
        exact ⟨h, stageStep_refl s⟩
    · simp at hs'
  | removeFinishing a =>
    simp only [step] at hs'
    split at hs'
    · rename_i id handle hphase
      obtain rfl := Option.some.inj hs'
      exact inv_removeFinishing h hphase
    · simp at hs'
  | releaseReference a =>
    simp only [step] at hs'
    split at hs'
    · rename_i id hphase
      obtain ⟨st, hin, -⟩ := h.stage id
      obtain ⟨r, rfl⟩ := (hin.holders a).mp (by simp [hphase])
      rw [releaseReference_of_one hin.references] at hs'
      cases hrel : (s.registry.sessions id).released with
      | true =>
        rw [hrel] at hs'
        obtain rfl := Option.some.inj hs'
        rw [setSession_setPhase]
        exact inv_release h hphase (by rw [hrel]; rfl) rfl
      | false =>
        rw [hrel] at hs'
        obtain rfl := Option.some.inj hs'
        rw [setSession_setPhase]
        exact inv_release h hphase (by rw [hrel]; rfl) rfl
    · simp at hs'
  | remove a handle => exact inv_remove h hs'
  | destroy a =>
    simp only [step] at hs'
    split at hs'
    · rename_i id hphase
      obtain rfl := Option.some.inj hs'
      exact inv_destroy h hphase rfl
    · simp at hs'

/-- Allocations and registrations are counted alike. -/
theorem nextId_step {kind : Kind} {s s' : System Activation} {act : Action Activation}
    (hs' : step kind s act = some s') : s'.nextId = s.nextId + registrations [act] := by
  cases act with
  | register =>
    simp only [step, Option.map_eq_some_iff] at hs'
    obtain ⟨⟨handle, r⟩, -, rfl⟩ := hs'
    rfl
  | acquire a handle | beginFinish a handle | removeFinishing a | releaseReference a
  | remove a handle | destroy a =>
    simp only [step] at hs'
    split at hs' <;> (try split at hs') <;> simp_all [registrations] <;> (subst hs'; rfl)

/-- The invariant holds after every run, and the allocation counter counts its registrations. -/
theorem inv_run {kind : Kind} {acts : List (Action Activation)} {s : System Activation}
    (h : run (step kind) System.initial acts = some s) :
    Inv s ∧ s.nextId = registrations acts := by
  refine run_history_invariant (P := fun acts s => Inv s ∧ s.nextId = registrations acts)
    (Q := fun _ => True) (fun _ _ _ => trivial) ⟨inv_initial, rfl⟩ ?_ trivial h
  rintro acts act s s' - ⟨hinv, hcount⟩ hs'
  refine ⟨(inv_step hinv hs').1, ?_⟩
  rw [nextId_step hs', hcount, registrations, registrations, registrations, List.countP_append]

/-! ## The guarantees -/

/-- Live handles are positive and pairwise distinct. -/
structure LiveHandles (s : System Activation) : Prop where
  positive : ∀ e ∈ s.registry.entries, 0 < e.handle
  distinct : (s.registry.entries.map Entry.handle).Nodup

/-- The activation is told to destroy the session, and nobody else is. -/
def SoleDestroyer (s : System Activation) (id : ℕ) : Prop :=
  ∃ a, s.phase a = .destroying id ∧ ∀ b, s.phase b = .destroying id → b = a

/-- Nobody is told to destroy the session. -/
def NoDestroyer (s : System Activation) (id : ℕ) : Prop := ∀ a, s.phase a ≠ .destroying id

/-- The lifetime guarantees of a registry. -/
structure SessionsSafe (kind : Kind) (s : System Activation) : Prop where
  references_le : ∀ id, (s.registry.sessions id).referenceCount ≤ 1
  inUse_iff : ∀ id, (s.registry.sessions id).inUse = true ↔
    (s.registry.sessions id).referenceCount = 1
  /-- The counter counts: it is one exactly while some operation is inside the session. -/
  references_iff : ∀ id, (s.registry.sessions id).referenceCount = 1 ↔
    ∃ a, (s.phase a).Holds id
  exclusive : ∀ id a b, (s.phase a).Holds id → (s.phase b).Holds id → a = b
  alive_while_held : ∀ id a, (s.phase a).Holds id → s.destroyed id = 0 ∧ NoDestroyer s id
  /-- A session counts as removed once it has been registered and has no node any more. -/
  removed_iff : ∀ id < s.nextId, (s.registry.sessions id).released = true ↔
    ¬ ∃ e ∈ s.registry.entries, e.session = id
  destroyed_once : ∀ id, (s.registry.sessions id).released = true →
    ((s.registry.sessions id).referenceCount = 1 ∧ s.destroyed id = 0 ∧ NoDestroyer s id) ∨
    ((s.registry.sessions id).referenceCount = 0 ∧ s.destroyed id = 0 ∧ SoleDestroyer s id) ∨
    ((s.registry.sessions id).referenceCount = 0 ∧ s.destroyed id = 1 ∧ NoDestroyer s id)
  /-- The last release of a removed session is followed by its destruction, by the same
  activation. -/
  last_release : ∀ id a s', s.phase a = .holding id → (s.registry.sessions id).released = true →
    step kind s (.releaseReference a) = some s' → s'.phase a = .destroying id
  destruction : ∀ id a, s.phase a = .destroying id →
    ∃ s', step kind s (.destroy a) = some s' ∧ s'.destroyed id = 1
  never_removed : ∀ id, (s.registry.sessions id).released = false →
    s.destroyed id = 0 ∧ NoDestroyer s id
  acquire_idle : ∀ handle id r, acquireOf kind s.registry handle = (.ok id, r) →
    (∃ e ∈ s.registry.entries, e.handle = handle ∧ e.session = id) ∧
      (s.registry.sessions id).referenceCount = 0 ∧ s.destroyed id = 0
  stale : ∀ handle, handle ∈ s.removed ∨ handle ∉ s.issued →
    findEntryLocked s.registry.entries handle = none ∧
      (∃ t, acquireOf kind s.registry handle = (.error t, s.registry)) ∧
      remove s.registry handle = (none, s.registry)

omit [DecidableEq Activation] in
/-- A stage other than `leaked` gives the guarantee about removed sessions. -/
theorem InStage.destroyed_once {s : System Activation} {id : ℕ} {st : Stage Activation}
    (h : InStage s id st) (hleak : st ≠ .leaked)
    (hrel : (s.registry.sessions id).released = true) :
    ((s.registry.sessions id).referenceCount = 1 ∧ s.destroyed id = 0 ∧ NoDestroyer s id) ∨
    ((s.registry.sessions id).referenceCount = 0 ∧ s.destroyed id = 0 ∧ SoleDestroyer s id) ∨
    ((s.registry.sessions id).referenceCount = 0 ∧ s.destroyed id = 1 ∧ NoDestroyer s id) := by
  have hstage := h.released.symm.trans hrel
  have hno : (∀ a, st ≠ .condemned a) → NoDestroyer s id :=
    fun hne a ha => hne a ((h.destroyers a).mp ha)
  rw [h.references, h.destroyed]
  match st, hstage, hleak with
  | .busy a true, _, _ => exact .inl ⟨rfl, rfl, hno (by simp)⟩
  | .condemned a, _, _ =>
    refine .inr (.inl ⟨rfl, rfl, a, (h.destroyers a).mpr rfl, fun b hb => ?_⟩)
    exact (Stage.condemned.inj ((h.destroyers b).mp hb)).symm
  | .destroyed, _, _ => exact .inr (.inr ⟨rfl, rfl, hno (by simp)⟩)
  | .leaked, _, hleak => exact absurd rfl hleak

omit [DecidableEq Activation] in
/-- As long as the handle counter has not wrapped, a handle that was removed or never issued has
no node. -/
theorem Inv.stale {s : System Activation} (h : Inv s) (hwrap : s.nextId ≤ longMax) {handle : ℤ}
    (hstale : handle ∈ s.removed ∨ handle ∉ s.issued) :
    findEntryLocked s.registry.entries handle = none := by
  rw [findEntryLocked_eq_none]
  rintro e he rfl
  rcases hstale with hrem | hnew
  · obtain ⟨id, hid, hh, hrel⟩ := h.removed hwrap e.handle hrem
    obtain ⟨st, hin, -⟩ := h.stage e.session
    have hreg := hin.registered.mp ⟨e, he, rfl⟩
    have hborn : st ≠ .unborn := by rintro rfl; simp [Stage.registered] at hreg
    obtain ⟨hseq, -⟩ := h.sequential hwrap
    -- handles are handed out in sequence, so the removed session is the one of this node
    have hsame : id = e.session := by
      rw [← h.handle_owner e he, hseq id hid, hseq _ (hin.allocated.mpr hborn)] at hh
      omega
    rw [hsame, hin.released, Stage.not_released_of_registered hreg] at hrel
    simp at hrel
  · exact hnew (h.handle_issued e he)

omit [DecidableEq Activation] in
theorem Inv.liveHandles {s : System Activation} (h : Inv s) : LiveHandles s :=
  ⟨h.handles_pos, h.handles_nodup⟩

theorem Inv.sessionsSafe {kind : Kind} {s : System Activation} (h : Inv s)
    (hwrap : s.nextId ≤ longMax) : SessionsSafe kind s := by
  have hleak : ∀ {st : Stage Activation}, (st = .leaked → longMax < s.nextId) → st ≠ .leaked :=
    fun hl he => absurd (hl he) (not_lt.mpr hwrap)
  constructor
  · intro id
    obtain ⟨st, hin, -⟩ := h.stage id
    rw [hin.references]
    cases st <;> simp [Stage.references]
  · intro id
    obtain ⟨st, hin, -⟩ := h.stage id
    rw [hin.inUse, hin.references, decide_eq_true_iff]
  · intro id
    obtain ⟨st, hin, -⟩ := h.stage id
    simp only [hin.references, hin.holders]
    cases st <;> simp [Stage.references]
  · intro id a b ha hb
    obtain ⟨st, hin, -⟩ := h.stage id
    obtain ⟨r, rfl⟩ := (hin.holders a).mp ha
    obtain ⟨r', hr'⟩ := (hin.holders b).mp hb
    exact (Stage.busy.inj hr').1
  · intro id a ha
    obtain ⟨st, hin, -⟩ := h.stage id
    obtain ⟨r, rfl⟩ := (hin.holders a).mp ha
    exact ⟨hin.destroyed, fun b hb => by simpa using (hin.destroyers b).mp hb⟩
  · intro id hid
    obtain ⟨st, hin, -⟩ := h.stage id
    have hborn := hin.allocated.mp hid
    rw [hin.released, hin.registered]
    cases st with
    | unborn => exact absurd rfl hborn
    | busy a r => cases r <;> simp [Stage.released, Stage.registered]
    | idle | condemned a | destroyed | leaked => simp [Stage.released, Stage.registered]
  · intro id hrel
    obtain ⟨st, hin, hl⟩ := h.stage id
    exact hin.destroyed_once (hleak hl) hrel
  · intro id a s' ha hrel hs'
    obtain ⟨st, hin, -⟩ := h.stage id
    obtain ⟨r, rfl⟩ := (hin.holders a).mp (by simp [ha])
    simp only [step, ha] at hs'
    rw [releaseReference_of_one hin.references, hrel] at hs'
    obtain rfl := Option.some.inj hs'
    exact setPhase_phase_self _ a _
  · intro id a ha
    obtain ⟨st, hin, -⟩ := h.stage id
    obtain rfl := (hin.destroyers a).mp ha
    refine ⟨_, by simp only [step, ha]; rfl, ?_⟩
    simpa [Stage.destructions] using hin.destroyed
  · intro id hrel
    obtain ⟨st, hin, -⟩ := h.stage id
    have hstage := hin.released.symm.trans hrel
    rw [hin.destroyed]
    refine ⟨?_, fun a ha => ?_⟩
    · cases st <;> simp_all [Stage.released, Stage.destructions]
    · obtain rfl := (hin.destroyers a).mp ha
      simp [Stage.released] at hstage
  · intro handle id r hacq
    obtain ⟨inactive, hacq⟩ := acquireOf_ok hacq
    obtain ⟨-, ⟨e, he, hh, hid⟩, -, huse, -, -⟩ := acquire_ok hacq
    obtain ⟨st, hin, -⟩ := h.stage id
    have hrefs := hin.references_of_not_inUse huse
    obtain rfl := hin.eq_idle ⟨e, he, hid⟩ hrefs
    exact ⟨⟨e, he, hh, hid⟩, hrefs, hin.destroyed⟩
  · intro handle hstale
    have hnone := h.stale hwrap hstale
    refine ⟨hnone, ?_, (remove_of_not_found (.inr hnone)).1⟩
    cases kind with
    | decoder => exact ⟨_, acquire_of_not_found hnone⟩
    | encoder => exact ⟨_, acquire_of_not_found hnone⟩

/-- **Safety of the native registries.** After every run of the system, live handles are positive
and distinct, also when the counter has wrapped; and after every run of fewer than `2^63`
registrations the lifetime guarantees hold. -/
theorem registries_safe (kind : Kind) (acts : List (Action Activation)) (s : System Activation)
    (h : run (step kind) System.initial acts = some s) :
    LiveHandles s ∧ (registrations acts < 2 ^ 63 → SessionsSafe kind s) := by
  obtain ⟨hinv, hcount⟩ := inv_run h
  refine ⟨hinv.liveHandles, fun hlt => hinv.sessionsSafe ?_⟩
  rw [hcount, longMax]
  omega

/-- Two threads race on one encoder: while the first is inside `finishEncoder`, the second releases
the handle, and the session goes away when the first one leaves. -/
def finishRace : List (Action Bool) :=
  [.register, .beginFinish false 1, .remove true 1, .removeFinishing false,
    .releaseReference false, .destroy false]

theorem registries_safe_finish_race :
    ∃ s, run (step .encoder) System.initial finishRace = some s ∧ s.destroyed 0 = 1 ∧
      LiveHandles s ∧ SessionsSafe .encoder s :=
  have h := registries_safe .encoder finishRace _ rfl
  ⟨_, rfl, rfl, h.1, h.2 (by decide)⟩

end JFlac.Handles
