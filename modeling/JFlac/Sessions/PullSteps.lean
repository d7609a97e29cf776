import JFlac.Sessions.PullCustody

/-!
# The steps of a pull session

Every step moves the custody of the handle and the session on, so that `Inv` holds in every
interleaving with any nesting of calls. There is one lemma for each thing that can happen to the
custody; `inv_step` sorts the steps into them.
-/

namespace JFlac.Sessions.Pull

open JFlac.Handles JFlac.Lib

variable {Thread : Type} [DecidableEq Thread] {handle : ℤ} {id : ℕ} {source : PullSource}
  {c c' : Custody Thread} {s s' : System Thread} {t : Thread} {f f' : Frame} {rest : List Frame}
  {sweep : Bool}

/-! ## One thread moves -/

/-- The threads after one of them moved, under a custody that says the same about the others. -/
theorem Inv.threads_update (h : Inv handle id source c s) {frames : List Frame}
    (hself : ThreadFits handle id c' t frames) (hothers : ∀ u, u ≠ t → c.SameFor u c')
    (hgrants : ∀ u, u ≠ t → ∀ f ∈ s.stack u, f.locked = true → c.Grants u → c'.Grants u)
    (u : Thread) :
    ThreadFits handle id c' u (Function.update s.stack t frames u) := by
  by_cases hu : u = t
  · subst hu
    rw [Function.update_self]
    exact hself
  · rw [Function.update_of_ne hu]
    exact (h.threads u).sameFor (hothers u hu) (hgrants u hu)

/-- A report of a failed read stays on the stack unless it was on top. -/
theorem Inv.failing_update (h : Inv handle id source c s) {frames : List Frame}
    (hself : ∀ f ∈ s.stack t, f.reports = true → ∃ f ∈ frames, f.reports = true) :
    s.readFailed = true → s.session.active = false ∨
      ∃ u, ∃ f ∈ Function.update s.stack t frames u, f.reports = true := by
  intro hfailed
  rcases h.failing hfailed with hinactive | ⟨u, f, hf, hreports⟩
  · exact .inl hinactive
  · refine .inr ?_
    by_cases hu : u = t
    · subst hu
      obtain ⟨f', hf', hreports'⟩ := hself f hf hreports
      refine ⟨u, f', ?_, hreports'⟩
      rw [Function.update_self]
      exact hf'
    · refine ⟨u, f, ?_, hreports⟩
      rw [Function.update_of_ne hu]
      exact hf

omit [DecidableEq Thread] in
/-- Below a call nothing is reported. -/
theorem Below.reports (h : Below id c t rest) : ∀ f ∈ rest, f.reports = false := by
  intro f hf
  have hreading := h.isReading f hf
  cases f with
  | reading i request => rfl
  | _ => cases hreading

/-- The reader is inside the monitor. -/
theorem Inv.grants_reader (h : Inv handle id source c s) (hreader : c.reader = some t) :
    c.Grants t := by
  have hbelow : ∀ rest, Below id c t rest → c.Grants t := by
    rintro rest (⟨-, hnone⟩ | ⟨request, -, -, hgrant⟩)
    · exact absurd hreader hnone
    · exact hgrant
  rcases h.threads t with ⟨f, rest, -, hrun⟩ | ⟨hrest, -⟩
  · exact hbelow rest hrun.below
  · exact hbelow _ hrest

/-- An atomic that is not empty has custody of the handle. -/
theorem Inv.eq_slot (h : Inv handle id source c s) (hslot : s.session.cleanup.handle ≠ 0) :
    s.session.cleanup.handle = handle ∧ ∃ r, c = .slot r := by
  have hvalue := h.slot
  cases c with
  | slot r => exact ⟨hvalue, r, rfl⟩
  | _ => exact absurd hvalue hslot

/-- An empty atomic does not. -/
theorem Inv.ne_slot (h : Inv handle id source c s) (hslot : s.session.cleanup.handle = 0)
    (r : Option Thread) : c ≠ .slot r := by
  rintro rfl
  have hzero : handle = 0 := h.slot.symm.trans hslot
  exact h.registry.handle_pos.ne' hzero

/-! ## The native read -/

namespace Inv

/-- A read gets a reference to the session. -/
theorem beginRead {r : Option Thread} (h : Inv handle id source (.slot r) s)
    (hmay : mayCall (s.stack t) = true) {monitor : Monitor Thread}
    (henter : s.monitor.enter t = some monitor) {i : ℕ} {registry : Registry}
    (hacquire : acquireDecodeSession s.registry handle = (.ok i, registry))
      (request : ReadRequest) :
    Inv handle id source (.slot (some t))
      ({ s with monitor := monitor, registry := registry }.setStack t
        (.reading i request :: s.stack t)) := by
  obtain ⟨rfl, hbusy, hregistry⟩ := h.registry.acquire hacquire
  obtain rfl : r = none := by
    cases r with
    | none => rfl
    | some u => cases hbusy
  have hempty : s.stack t = [] := by
    rcases ((h.threads t).outside hmay).1 with ⟨hnil, -⟩ | ⟨request', -, hreader, -⟩
    · exact hnil
    · cases hreader
  refine ⟨h.slot, h.released, h.retries, h.opened, h.stuck, h.threads_update ?_ (fun u hu => ?_)
    (fun _ _ _ _ _ _ => trivial), h.monitor.push henter, hregistry, h.ledger, h.closing,
    h.failing_update fun f hf => ?_⟩
  · rw [hempty]
    exact .inr ⟨.inr ⟨request, rfl, rfl, trivial⟩, nofun, nofun⟩
  · refine ⟨⟨nofun, fun hreader => ?_⟩, fun _ => ⟨nofun, nofun⟩, ⟨nofun, nofun⟩, nofun⟩
    exact absurd (Option.some.inj hreader).symm hu
  · rw [hempty] at hf
    exact absurd hf List.not_mem_nil

/-- A nested read is refused by the registry. -/
theorem refuseRead {r : Option Thread} (h : Inv handle id source (.slot r) s)
    (hmay : mayCall (s.stack t) = true) {monitor : Monitor Thread}
    (henter : s.monitor.enter t = some monitor) :
    Inv handle id source (.slot r)
      ({ s with monitor := monitor, readFailed := true }.setStack t
        (.returning (.error handleNotActive) :: s.stack t)) := by
  obtain ⟨hbelow, -⟩ := (h.threads t).outside hmay
  refine ⟨h.slot, h.released, h.retries, h.opened, h.stuck,
    h.threads_update ?_ (fun u _ => .refl _ u)
    (fun _ _ _ _ _ hc => hc), h.monitor.push henter, h.registry, h.ledger, h.closing, fun _ => ?_⟩
  · exact .inl ⟨_, _, rfl, hbelow, rfl, trivial, fun _ => trivial, nofun, nofun,
      fun _ _ => ⟨_, rfl⟩⟩
  · refine .inr ⟨t, .returning (.error handleNotActive), ?_, rfl⟩
    show _ ∈ Function.update s.stack t _ t
    rw [Function.update_self]
    exact List.mem_cons_self

/-- What a native read does to its context between two callbacks. -/
theorem inContext (h : Inv handle id source c s) {context : PullContext}
    (hpending : context.pullPendingSamples = s.context.pullPendingSamples)
    (hsource : context.source = s.context.source) :
    Inv handle id source c { s with context := context } := by
  refine ⟨h.slot, h.released, h.retries, h.opened, h.stuck, h.threads, h.monitor, h.registry, ?_,
    h.closing, h.failing⟩
  show Ledger source _ s.frees s.nextBlock context.pullPendingSamples context.source
  rw [hpending, hsource]
  exact h.ledger

/-- The write callback keeps a block. -/
theorem keepPending (h : Inv handle id source c s) (hnone : s.context.pullPendingSamples = none)
    (hdestroyed : c.isDestroyed = false) :
    Inv handle id source c { s with
      context := { s.context with pullPendingSamples := some s.nextBlock }
      nextBlock := s.nextBlock + 1 } := by
  obtain ⟨hsession, hrefs, hblocks, -, hsource, -⟩ := h.ledger
  refine ⟨h.slot, h.released, h.retries, h.opened, h.stuck, h.threads, h.monitor, h.registry,
    ⟨hsession, hrefs, fun n => ?_, fun n hn => ?_, hsource, fun hd => ?_⟩, h.closing, h.failing⟩
  · rw [hblocks n, hnone]
    refine if_congr ?_ rfl rfl
    show n < s.nextBlock ∧ none ≠ some n ↔ n < s.nextBlock + 1 ∧ some s.nextBlock ≠ some n
    simp only [ne_eq, reduceCtorEq, not_false_eq_true, and_true, Option.some.injEq]
    omega
  · obtain rfl := Option.some.inj hn
    exact Nat.lt_succ_self _
  · rw [hdestroyed] at hd
    cases hd

end Inv

omit [DecidableEq Thread] in
/-- Freeing a resource counts for nothing else. -/
theorem free_frees (s : System Thread) (r q : Resource) :
    (s.free r).frees q = s.frees q + if q = r then 1 else 0 := by
  by_cases hq : q = r
  · subst hq
    rw [if_pos rfl]
    exact Function.update_self _ _ _
  · rw [if_neg hq]
    exact Function.update_of_ne hq _ _

omit [DecidableEq Thread] in
/-- What `clear_decode_pull_pending` frees. -/
theorem clearDecodePullPending_spec (s : System Thread) :
    ∃ frees, s.clearDecodePullPending =
        { s with frees := frees, context := { s.context with pullPendingSamples := none } } ∧
      ∀ q, frees q =
        s.frees q + if s.context.pullPendingSamples.map .block = some q then 1 else 0 := by
  obtain ⟨session, monitor, stack, outcome, cleaned, registry, context⟩ := s
  obtain ⟨output, requested, written, ended, pending, current⟩ := context
  cases pending with
  | none => exact ⟨_, rfl, fun q => rfl⟩
  | some n =>
    refine ⟨_, rfl, fun q => (free_frees _ _ _).trans ?_⟩
    simp [eq_comm]

omit [DecidableEq Thread] in
/-- What the two functions that clear the global reference free. -/
theorem clearSource_spec (s : System Thread) :
    ∃ frees, s.clearDecodeSeekableChannel.clearDecodeInputStream =
        { s with frees := frees, context := { s.context with source := .file } } ∧
      ∀ q, frees q =
        s.frees q + if s.context.source.reference.map .globalRef = some q then 1 else 0 := by
  obtain ⟨session, monitor, stack, outcome, cleaned, registry, context⟩ := s
  obtain ⟨output, requested, written, ended, pending, current⟩ := context
  cases current with
  | file => exact ⟨_, rfl, fun q => rfl⟩
  | seekableChannel n =>
    refine ⟨_, rfl, fun q => (free_frees _ _ _).trans ?_⟩
    simp [PullSource.reference, eq_comm]
  | inputStream n =>
    refine ⟨_, rfl, fun q => (free_frees _ _ _).trans ?_⟩
    simp [System.clearDecodeSeekableChannel, PullSource.reference, eq_comm]

/-- A block that is no longer pending is freed. -/
theorem Ledger.clear {destroyed : Bool} {frees frees' : Resource → ℕ} {nextBlock : ℕ}
    {pending : Option ℕ} {current : PullSource}
    (h : Ledger source destroyed frees nextBlock pending current)
    (hfrees : ∀ q, frees' q = frees q + if pending.map .block = some q then 1 else 0) :
    Ledger source destroyed frees' nextBlock none current := by
  refine ⟨?_, fun n => ?_, fun n => ?_, nofun, h.source_eq, fun _ => rfl⟩
  · simp [hfrees, h.session]
  · simp [hfrees, h.refs]
  · have hlt := h.pending_lt n
    rw [hfrees, h.blocks n]
    by_cases hn : pending = some n
    · simp [hn, hlt hn]
    · simp [hn]

/-- The session and its reference are freed together. -/
theorem Ledger.destroy {frees frees' : Resource → ℕ} {nextBlock : ℕ} {current : PullSource}
    (h : Ledger source false frees nextBlock none current)
    (hfrees : ∀ q, frees' q = frees q +
      (if source.reference.map .globalRef = some q then 1 else 0) +
      if q = .session then 1 else 0) :
    Ledger source true frees' nextBlock none .file := by
  refine ⟨?_, fun n => ?_, fun n => ?_, nofun, nofun, fun _ => rfl⟩
  · simp [hfrees, h.session]
  · simp [hfrees, h.refs]
  · simp [hfrees, h.blocks n]

omit [DecidableEq Thread] in
/-- The destruction frees the session, its reference and its pending block. -/
theorem destroyDecodeSession_spec (id : ℕ)
    (h : Ledger source false s.frees s.nextBlock s.context.pullPendingSamples s.context.source) :
    ∃ frees context,
      s.destroyDecodeSession id =
        { s with
          registry := s.registry.setSession id { s.registry.sessions id with hasCodec := false }
          frees := frees, context := context } ∧
      Ledger source true frees s.nextBlock context.pullPendingSamples context.source := by
  unfold System.destroyDecodeSession
  obtain ⟨frees₁, heq₁, hfrees₁⟩ := clearSource_spec { s with
    registry := s.registry.setSession id { s.registry.sessions id with hasCodec := false } }
  simp only [heq₁]
  obtain ⟨frees₂, heq₂, hfrees₂⟩ := clearDecodePullPending_spec { s with
    registry := s.registry.setSession id { s.registry.sessions id with hasCodec := false }
    frees := frees₁, context := { s.context with source := .file } }
  rw [heq₂]
  have hsource : s.context.source = source := h.source_eq rfl
  have hcleared := h.clear fun q => rfl
  refine ⟨_, _, rfl, hcleared.destroy fun q => (free_frees _ _ _).trans ?_⟩
  show frees₂ q + _ = _
  rw [hfrees₂, ← hsource]
  show frees₁ q + _ + _ = _
  rw [hfrees₁, Nat.add_right_comm (s.frees q)]

namespace Inv

/-- The read itself releases a block it has drained. -/
theorem clearPending (h : Inv handle id source c s) :
    Inv handle id source c s.clearDecodePullPending := by
  obtain ⟨frees, heq, hfrees⟩ := clearDecodePullPending_spec s
  rw [heq]
  exact ⟨h.slot, h.released, h.retries, h.opened, h.stuck, h.threads, h.monitor, h.registry,
    h.ledger.clear hfrees, h.closing, h.failing⟩

/-- A native read ends while the handle is still there. -/
theorem leave_slot {r : Option Thread} (h : Inv handle id source (.slot r) s) {i : ℕ}
    {request : ReadRequest} (ht : s.stack t = .reading i request :: rest)
    (output : Option ℕ) {failed : Bool} {outcome : Except Throwable ℤ}
    (hfailed : failed = true → s.readFailed = true ∨ Frame.reports (.returning outcome) = true) :
    (releaseDecodeSessionReference s.registry i).1 = false ∧
      Inv handle id source (.slot none) ({ s with
        context := { s.context with pullOutput := output }
        registry := (releaseDecodeSessionReference s.registry i).2
        readFailed := failed }.setStack t (.returning outcome :: rest)) := by
  have hfits := h.threads t
  rw [ht] at hfits
  obtain ⟨rfl, rfl, hreader, -⟩ := hfits.inRead
  obtain rfl : r = some t := hreader
  obtain ⟨hflag, hregistry⟩ := h.registry.releaseReference
  refine ⟨hflag, h.slot, h.released, h.retries, h.opened, h.stuck,
    h.threads_update ?_ (fun u hu => ?_)
    (fun _ _ _ _ _ _ => trivial), h.monitor.replace ht rfl, hregistry, h.ledger, h.closing,
    fun hf => ?_⟩
  · exact .inl ⟨_, _, rfl, .inl ⟨rfl, nofun⟩, rfl, trivial, fun _ => trivial, nofun, nofun,
      fun hne => absurd rfl hne⟩
  · refine ⟨⟨fun hsome => ?_, nofun⟩, fun _ => ⟨nofun, nofun⟩, ⟨nofun, nofun⟩, nofun⟩
    exact absurd (Option.some.inj hsome).symm hu
  · rcases hfailed hf with hbefore | hreports
    · refine h.failing_update (fun f hf hreports => ?_) hbefore
      rw [ht] at hf
      rw [List.mem_singleton.mp hf] at hreports
      cases hreports
    · refine .inr ⟨t, .returning outcome, ?_, hreports⟩
      show _ ∈ Function.update s.stack t _ t
      rw [Function.update_self]
      exact List.mem_cons_self

/-- A native read ends after the handle was released: it has to destroy the session. -/
theorem leave_removed {v : Thread} (h : Inv handle id source (.removed v) s) {i : ℕ}
    {request : ReadRequest} (ht : s.stack t = .reading i request :: rest)
    (output : Option ℕ) {failed : Bool} {outcome : Except Throwable ℤ}
    (hfailed : failed = true → s.readFailed = true ∨ Frame.reports (.returning outcome) = true) :
    (releaseDecodeSessionReference s.registry i).1 = true ∧
      Inv handle id source (.condemned t) ({ s with
        context := { s.context with pullOutput := output }
        registry := (releaseDecodeSessionReference s.registry i).2
        readFailed := failed }.setStack t (.destroying i (.returning outcome) :: rest)) := by
  have hfits := h.threads t
  rw [ht] at hfits
  obtain ⟨rfl, rfl, hreader, -⟩ := hfits.inRead
  obtain rfl : v = t := Option.some.inj hreader
  obtain ⟨hflag, hregistry⟩ := h.registry.releaseReference
  refine ⟨hflag, h.slot, h.released, nofun, h.opened, nofun, h.threads_update ?_ (fun u hu => ?_)
    (fun _ _ _ _ _ _ => trivial), h.monitor.replace ht rfl, hregistry, h.ledger, h.closing,
    fun hf => ?_⟩
  · exact .inl ⟨_, _, rfl, .inl ⟨rfl, nofun⟩, rfl, ⟨rfl, rfl⟩, fun _ => trivial, nofun,
      fun _ => rfl, fun hne => absurd rfl hne⟩
  · refine ⟨⟨fun hsome => ?_, nofun⟩, fun _ => ⟨nofun, nofun⟩, ⟨nofun, fun hc => ?_⟩, fun _ => rfl⟩
    · exact absurd (Option.some.inj hsome).symm hu
    · exact absurd (Custody.condemned.inj hc).symm hu
  · rcases hfailed hf with hbefore | hreports
    · refine h.failing_update (fun f hf hreports => ?_) hbefore
      rw [ht] at hf
      rw [List.mem_singleton.mp hf] at hreports
      cases hreports
    · refine .inr ⟨v, .destroying i (.returning outcome), ?_, ?_⟩
      · show _ ∈ Function.update s.stack v _ v
        rw [Function.update_self]
        exact List.mem_cons_self
      · cases outcome with
        | ok n => cases hreports
        | error e => rfl

end Inv

/-! ## Calls of the wrapper -/

namespace Inv

/-- The call a thread is carrying out. -/
theorem running (h : Inv handle id source c s) (ht : s.stack t = f :: rest)
    (hf : f.isReading = false) : Running handle id c t f rest := by
  have hfits := h.threads t
  rw [ht] at hfits
  exact hfits.running hf

/-- A call that reports no failed read makes way for its next frame. -/
theorem failing_next (h : Inv handle id source c s) (ht : s.stack t = f :: rest)
    (hrun : Running handle id c t f rest) {frames : List Frame} (hf : f.reports = false) :
    s.readFailed = true → s.session.active = false ∨
      ∃ u, ∃ g ∈ Function.update s.stack t frames u, g.reports = true := by
  refine h.failing_update fun g hg hreports => ?_
  rw [ht] at hg
  rcases List.mem_cons.mp hg with rfl | hg
  · rw [hf] at hreports
    cases hreports
  · rw [hrun.below.reports g hg] at hreports
    cases hreports

/-- A call that is over. -/
theorem finish (h : Inv handle id source c s) (ht : s.stack t = f :: rest)
    (hf : f.isReading = false) (hholds : f.holds = false) (hdestroying : f.isDestroying = false)
    (hreports : f.reports = false) (outcome : Except Throwable ℤ) :
    Inv handle id source c (s.finish t f rest outcome) := by
  have hrun := h.running ht hf
  have hself : ThreadFits handle id c t rest := by
    refine hrun.done .rfl (fun _ hc => hc) (fun sweep r hc => ?_) fun hc => ?_
    · rw [hrun.holder sweep r hc] at hholds
      cases hholds
    · rw [hrun.destroyer hc] at hdestroying
      cases hdestroying
  exact ⟨h.slot, h.released, h.retries, h.opened, h.stuck,
    h.threads_update hself (fun u _ => .refl _ u) fun _ _ _ _ _ hc => hc, h.monitor.pop ht,
    h.registry, h.ledger, h.closing, h.failing_next ht hrun hreports⟩

/-- A deactivated session with an empty atomic. -/
theorem deactivate_empty (h : Inv handle id source c s) (hslot : s.session.cleanup.handle = 0)
    (closed : Bool) :
    Inv handle id source c { s with session := s.session.deactivate.2, closeCalled := closed } := by
  have hstuck : c.Stuck false → s.releaseFailed = true := by
    intro hc
    cases c with
    | slot r => exact absurd rfl (h.ne_slot hslot r)
    | abandoned => exact h.stuck trivial
    | _ => exact hc.elim
  exact ⟨hslot.symm.trans h.slot, h.released, h.retries, nofun, hstuck, h.threads, h.monitor,
    h.registry, h.ledger, fun _ => rfl, fun _ => .inl rfl⟩

/-- A `close` claims the handle. -/
theorem close {r : Option Thread} (h : Inv handle id source (.slot r) s)
    (hmay : mayCall (s.stack t) = true) {monitor : Monitor Thread}
    (henter : s.monitor.enter t = some monitor) :
    Inv handle id source (.held t false r)
      ({ s with session := s.session.deactivate.2, closeCalled := true }.setStack t
        (.releasing false none s.session.deactivate.1 :: s.stack t)) := by
  obtain ⟨hbelow, -⟩ := (h.threads t).outside hmay
  have hhandle : s.session.deactivate.1 = handle := h.slot
  have hself : ThreadFits handle id (.held t false r) t
      (.releasing false none s.session.deactivate.1 :: s.stack t) :=
    .inl ⟨_, _, rfl, hbelow.transfer .rfl fun _ _ => ⟨rfl, rfl⟩, rfl, ⟨hhandle, r, rfl⟩, nofun,
      fun _ _ _ => rfl, nofun, fun _ hlocked => nomatch hlocked⟩
  refine ⟨rfl, h.released, fun _ => h.retries trivial, nofun, nofun, h.threads_update hself
    (fun u hu => Custody.sameFor_claim hu false) fun u hu f hf hlocked => ?_, h.monitor.push rfl,
    h.registry, h.ledger, fun _ => rfl, fun _ => .inl rfl⟩
  rw [h.monitor.locked_of_enter henter hu f hf] at hlocked
  cases hlocked

/-- A failed read finds the handle claimed, which a nested call has seen to. -/
theorem catch_empty (h : Inv handle id source c s) {e : Throwable}
    (ht : s.stack t = .returning (.error e) :: rest) (hslot : s.session.cleanup.handle = 0) :
    Inv handle id source c ({ s with session := s.session.deactivate.2 }.setStack t
      (.cleaning (some e) :: rest)) := by
  have hrun := h.running ht rfl
  have hreleased : c.isReleased = true := by
    have hgrant := hrun.granted rfl
    cases c with
    | slot r => exact absurd rfl (h.ne_slot hslot r)
    | held u sweep r =>
      obtain ⟨rfl, -⟩ := hgrant
      exact absurd (hrun.holder sweep r rfl) nofun
    | abandoned => exact hgrant.elim
    | _ => exact rfl
  have hself : ThreadFits handle id c t (.cleaning (some e) :: rest) :=
    hrun.next rfl hreleased rfl rfl .rfl (fun hc => hc)
      (fun sweep r hc => absurd (hrun.holder sweep r hc) nofun)
      fun hc => absurd (hrun.destroyer hc) nofun
  have hdeactivated := h.deactivate_empty hslot s.closeCalled
  exact ⟨hdeactivated.slot, h.released, h.retries, nofun, hdeactivated.stuck,
    h.threads_update hself (fun u _ => .refl _ u) fun _ _ _ _ _ hc => hc,
    h.monitor.replace ht rfl, h.registry, h.ledger, fun _ => rfl, fun _ => .inl rfl⟩

/-- A failed read claims the handle. -/
theorem catch_claims {r : Option Thread} (h : Inv handle id source (.slot r) s) {e : Throwable}
    (ht : s.stack t = .returning (.error e) :: rest) :
    Inv handle id source (.held t false r)
      ({ s with session := s.session.deactivate.2 }.setStack t
        (.releasing false (some e) s.session.deactivate.1 :: rest)) := by
  have hrun := h.running ht rfl
  have hhandle : s.session.deactivate.1 = handle := h.slot
  have hself : ThreadFits handle id (.held t false r) t
      (.releasing false (some e) s.session.deactivate.1 :: rest) :=
    hrun.next rfl ⟨hhandle, r, rfl⟩ rfl rfl .rfl (fun _ => ⟨rfl, rfl⟩) (fun _ _ _ => rfl) nofun
  refine ⟨rfl, h.released, fun _ => h.retries trivial, nofun, nofun, h.threads_update hself
    (fun u hu => Custody.sameFor_claim hu false) fun u hu f hf hlocked => ?_,
    h.monitor.replace ht rfl, h.registry, h.ledger, fun _ => rfl, fun _ => .inl rfl⟩
  have hmem : Frame.returning (.error e) ∈ s.stack t := by
    rw [ht]
    exact List.mem_cons_self
  rw [h.monitor.locked_eq_false hmem rfl hu f hf] at hlocked
  cases hlocked

/-- The locks and the failure of a call do not depend on who releases. -/
theorem afterRelease_frame (sweep : Bool) (failure : Option Throwable) (x : ℤ) (i : ℕ) :
    (Frame.destroying i (afterRelease sweep failure)).locked =
        (Frame.releasing sweep failure x).locked ∧
      (Frame.destroying i (afterRelease sweep failure)).failure =
        (Frame.releasing sweep failure x).failure := by
  cases sweep <;> exact ⟨rfl, rfl⟩

/-- A release without a native read hands the session over. -/
theorem release_idle (h : Inv handle id source (.held t sweep none) s) {failure : Option Throwable}
    {x : ℤ} (ht : s.stack t = .releasing sweep failure x :: rest) :
    (removeDecodeSession s.registry x).1 = some id ∧
      Inv handle id source (.condemned t) ({ s with
        registry := (removeDecodeSession s.registry x).2
        released := s.released + 1 }.setStack t
          (.destroying id (afterRelease sweep failure) :: rest)) := by
  have hrun := h.running ht rfl
  obtain ⟨rfl, -⟩ := hrun.placed
  obtain ⟨hflag, hregistry⟩ := h.registry.remove
  obtain ⟨hlocked, hfailure⟩ := afterRelease_frame sweep failure x id
  have hself : ThreadFits x id (.condemned t) t
      (.destroying id (afterRelease sweep failure) :: rest) :=
    hrun.next rfl ⟨rfl, rfl⟩ hlocked hfailure ⟨nofun, nofun⟩ (fun _ => trivial) nofun fun _ => rfl
  have hcount : s.released = 0 := h.released
  refine ⟨hflag, h.slot, congrArg (· + 1) hcount, nofun, h.opened, nofun, h.threads_update hself
    (fun u hu => ?_) fun _ _ _ _ _ _ => trivial, h.monitor.replace ht hlocked, hregistry, h.ledger,
    h.closing, h.failing_next ht hrun rfl⟩
  exact Custody.sameFor_of_held hu ⟨nofun, nofun⟩ nofun (Custody.condemned_ne hu)

/-- A release from inside a native read leaves the session to that read. -/
theorem release_busy {v : Thread} (h : Inv handle id source (.held t sweep (some v)) s)
    {failure : Option Throwable} {x : ℤ} (ht : s.stack t = .releasing sweep failure x :: rest) :
    sweep = false ∧ (removeDecodeSession s.registry x).1 = none ∧
      Inv handle id source (.removed t) ({ s with
        registry := (removeDecodeSession s.registry x).2
        released := s.released + 1 }.setStack t (.cleaning failure :: rest)) := by
  have hrun := h.running ht rfl
  obtain ⟨rfl, -⟩ := hrun.placed
  obtain ⟨rfl, rfl⟩ := h.grants_reader rfl
  obtain ⟨hflag, hregistry⟩ := h.registry.remove
  have hself : ThreadFits x id (.removed t) t (.cleaning failure :: rest) :=
    hrun.next rfl rfl rfl rfl .rfl (fun _ => trivial) nofun nofun
  have hcount : s.released = 0 := h.released
  exact ⟨rfl, hflag, h.slot, congrArg (· + 1) hcount, nofun, h.opened, nofun,
    h.threads_update hself (fun u hu => Custody.sameFor_of_held hu .rfl nofun nofun)
      fun _ _ _ _ _ _ => trivial,
    h.monitor.replace ht rfl, hregistry, h.ledger, h.closing, h.failing_next ht hrun rfl⟩

/-- The wrapper's release fails. -/
theorem failRelease (h : Inv handle id source c s) {failure : Option Throwable} {x : ℤ}
    (ht : s.stack t = .releasing false failure x :: rest) (e : Throwable) :
    Inv handle id source c (s.setStack t (.restoring failure x e :: rest)) := by
  have hrun := h.running ht rfl
  obtain ⟨rfl, r, rfl⟩ := hrun.placed
  have hself : ThreadFits x id (.held t false r) t (.restoring failure x e :: rest) :=
    hrun.next rfl ⟨rfl, r, rfl⟩ rfl rfl .rfl (fun hc => hc) (fun _ _ _ => rfl) nofun
  exact ⟨h.slot, h.released, h.retries, h.opened, h.stuck,
    h.threads_update hself (fun u _ => .refl _ u) fun _ _ _ _ _ hc => hc,
    h.monitor.replace ht rfl, h.registry, h.ledger, h.closing, h.failing_next ht hrun rfl⟩

/-- The release by the Cleaner action fails, and the handle is given up. -/
theorem abandon (h : Inv handle id source c s) {failure : Option Throwable} {x : ℤ}
    (ht : s.stack t = .releasing true failure x :: rest) (outcome : Except Throwable ℤ) :
    Inv handle id source .abandoned ({ s with releaseFailed := true }.finish t
      (.releasing true failure x) rest outcome) := by
  have hrun := h.running ht rfl
  obtain ⟨rfl, r, rfl⟩ := hrun.placed
  have hreader : r = none := by
    cases r with
    | none => rfl
    | some v => exact absurd (h.grants_reader rfl).2 nofun
  subst hreader
  have hself : ThreadFits x id .abandoned t rest :=
    hrun.done ⟨nofun, nofun⟩ (fun _ hc => absurd hc.2 nofun) nofun nofun
  exact ⟨h.slot, h.released, nofun, h.opened, fun _ => rfl,
    h.threads_update hself (fun u hu => Custody.sameFor_of_held hu .rfl nofun nofun)
      fun u hu _ _ _ hc => absurd hc.1.symm hu,
    h.monitor.pop ht, h.registry, h.ledger, h.closing, h.failing_next ht hrun rfl⟩

/-- A failed release puts the handle back. -/
theorem restore (h : Inv handle id source c s) {failure : Option Throwable} {x : ℤ} {e : Throwable}
    (ht : s.stack t = .restoring failure x e :: rest) (outcome : Except Throwable ℤ) :
    ∃ r, Inv handle id source (.slot r) ({ s with
      session := { s.session with cleanup := (s.session.cleanup.restoreHandle x).2 }
      releaseFailed := true }.finish t (.restoring failure x e) rest outcome) := by
  have hrun := h.running ht rfl
  obtain ⟨rfl, r, rfl⟩ := hrun.placed
  have hself : ThreadFits x id (.slot r) t rest :=
    hrun.done .rfl (fun _ _ => trivial) nofun nofun
  have hempty : s.session.cleanup = ⟨0⟩ := congrArg Cleanup.mk h.slot
  rw [hempty, Cleanup.restoreHandle_zero h.registry.handle_pos.ne']
  exact ⟨r, rfl, h.released, fun _ => h.retries trivial, fun _ _ => trivial, fun _ => rfl,
    h.threads_update hself (fun u hu => Custody.sameFor_of_held hu .rfl nofun nofun)
      fun _ _ _ _ _ _ => trivial,
    h.monitor.pop ht, h.registry, h.ledger, h.closing, h.failing_next ht hrun rfl⟩

/-- The session is destroyed. -/
theorem destroy (h : Inv handle id source c s) {i : ℕ} {after : After}
    (ht : s.stack t = .destroying i after :: rest) :
    Inv handle id source .destroyed
      ((s.destroyDecodeSession i).continue t (.destroying i after) rest after) := by
  have hrun := h.running ht rfl
  obtain ⟨rfl, rfl⟩ := hrun.placed
  obtain ⟨frees, context, heq, hledger⟩ := destroyDecodeSession_spec i h.ledger
  rw [heq]
  have hregistry : Registered handle i true false (s.registry.setSession i
      { s.registry.sessions i with hasCodec := false }) :=
    h.registry.setSession _ h.registry.released_eq h.registry.references h.registry.inUse
  have hothers : ∀ u, u ≠ t → (Custody.condemned t).SameFor u .destroyed := by
    intro u hu
    exact ⟨.rfl, fun _ => ⟨nofun, nofun⟩, ⟨fun hc => absurd hc (Custody.condemned_ne hu), nofun⟩,
      fun _ => rfl⟩
  have hthreads {frames : List Frame} (hself : ThreadFits handle i .destroyed t frames) :=
    h.threads_update hself hothers fun _ _ _ _ _ _ => trivial
  cases after with
  | returning outcome =>
    refine ⟨h.slot, h.released, nofun, h.opened, nofun, hthreads (hrun.next rfl trivial rfl rfl .rfl
      (fun _ => trivial) nofun nofun), h.monitor.replace ht rfl, hregistry, hledger, h.closing,
      h.failing_update fun g hg hreports => ?_⟩
    rw [ht] at hg
    rcases List.mem_cons.mp hg with rfl | hg
    · refine ⟨.returning outcome, List.mem_cons_self, ?_⟩
      cases outcome with
      | ok n => cases hreports
      | error e => rfl
    · rw [hrun.below.reports g hg] at hreports
      cases hreports
  | cleaning failure =>
    exact ⟨h.slot, h.released, nofun, h.opened, nofun, hthreads (hrun.next rfl rfl rfl rfl .rfl
      (fun _ => trivial) nofun nofun), h.monitor.replace ht rfl, hregistry, hledger, h.closing,
      h.failing_next ht hrun rfl⟩
  | swept failure =>
    exact ⟨h.slot, h.released, nofun, h.opened, nofun, hthreads (hrun.done .rfl (fun _ _ => trivial)
      nofun nofun), h.monitor.pop ht, hregistry, hledger, h.closing, h.failing_next ht hrun rfl⟩

/-- A Cleaner action that finds the atomic empty. -/
theorem ranEmpty (h : Inv handle id source c s) (hslot : s.session.cleanup.handle = 0)
    (hretries : ¬ c.Retries) : Inv handle id source c s.runCleanup.2 :=
  ⟨hslot.symm.trans h.slot, h.released, fun hr => absurd hr hretries, nofun, h.stuck, h.threads,
    h.monitor, h.registry, h.ledger, h.closing, h.failing⟩

/-- The Cleaner thread claims the handle of an unreachable session. -/
theorem cleanerClaims {r : Option Thread} (h : Inv handle id source (.slot r) s)
    (hquiet : ∀ u, s.stack u = []) :
    Inv handle id source (.held t true r) (s.runCleanup.2.setStack t
      [.releasing true none s.runCleanup.1]) := by
  have hhandle : s.runCleanup.1 = handle := h.slot
  have hreader : r ≠ some t := by
    intro hreader
    have hfits := h.threads t
    rw [hquiet t] at hfits
    rcases (hfits.outside rfl).1 with ⟨-, hnone⟩ | ⟨request, hnil, -⟩
    · exact hnone hreader
    · cases hnil
  have hself : ThreadFits handle id (.held t true r) t [.releasing true none s.runCleanup.1] :=
    .inl ⟨_, _, rfl, .inl ⟨rfl, hreader⟩, rfl, ⟨hhandle, r, rfl⟩, nofun, fun _ _ _ => rfl, nofun,
      fun hne => absurd rfl hne⟩
  have hmonitor : Balanced Frame.locked s.monitor (Function.update s.stack t
      (.releasing true none s.runCleanup.1 :: s.stack t)) := h.monitor.push rfl
  rw [hquiet t] at hmonitor
  refine ⟨rfl, h.released, nofun, nofun, nofun, h.threads_update hself
    (fun u hu => Custody.sameFor_claim hu true) fun u _ f hf => ?_, hmonitor, h.registry, h.ledger,
    h.closing, h.failing_update fun f hf => ?_⟩
  · rw [hquiet u] at hf
    exact absurd hf List.not_mem_nil
  · rw [hquiet t] at hf
    exact absurd hf List.not_mem_nil

end Inv

/-! ## Every step -/

/-- What a session that lets a read through is like. -/
theorem PullSession.check_some {p : PullSession} {request : ReadRequest} {x : ℤ}
    (h : p.check request = .ok (some x)) : p.active = true ∧ p.cleanup.handle = x ∧ x ≠ 0 := by
  unfold PullSession.check at h
  split at h
  · cases h
  rename_i hguard
  rw [not_or, Bool.not_eq_false] at hguard
  repeat (split at h; · cases h)
  obtain rfl := Option.some.inj (Except.ok.inj h)
  exact ⟨hguard.1, rfl, hguard.2⟩

omit [DecidableEq Thread] in
/-- The thread of a step inside a native read has that read on its stack. -/
theorem inRead_eq_some {change : ReadRequest → System Thread} (h : s.inRead t change = some s') :
    ∃ i request rest, s.stack t = .reading i request :: rest ∧ s' = change request := by
  unfold System.inRead at h
  split at h
  · rename_i i request rest ht
    exact ⟨i, request, rest, ht, (Option.some.inj h).symm⟩
  · cases h

/-- A session is not destroyed under a native read. -/
theorem Inv.isDestroyed_of_reader (h : Inv handle id source c s) {i : ℕ} {request : ReadRequest}
    (ht : s.stack t = .reading i request :: rest) : c.isDestroyed = false := by
  have hfits := h.threads t
  rw [ht] at hfits
  have hreader := hfits.inRead.2.2.1
  cases c <;> first | rfl | cases hreader

/-- Every step moves the custody on. -/
theorem inv_step (h : Inv handle id source c s) {action : Action Thread}
    (hstep : Step id s action s') : ∃ c', Inv handle id source c' s' := by
  obtain ⟨hstep, hquiet⟩ := hstep
  cases action with
  | read t request =>
    simp only [step] at hstep
    split at hstep
    · rename_i hmay
      split at hstep
      · cases hstep
      rename_i monitor henter
      split at hstep
      · cases hstep
        exact ⟨c, h.slot, h.released, h.retries, h.opened, h.stuck, h.threads, h.monitor,
          h.registry, h.ledger, h.closing, h.failing⟩
      · cases hstep
        exact ⟨c, h.slot, h.released, h.retries, h.opened, h.stuck, h.threads, h.monitor,
          h.registry, h.ledger, h.closing, h.failing⟩
      rename_i x hcheck
      obtain ⟨-, rfl, hslot⟩ := PullSession.check_some hcheck
      obtain ⟨hhandle, r, rfl⟩ := h.eq_slot hslot
      rw [hhandle] at hstep
      split at hstep
      · rename_i i registry hacquire
        cases hstep
        exact ⟨_, h.beginRead hmay henter hacquire request⟩
      · rename_i e registry hacquire
        cases hstep
        obtain ⟨rfl, rfl⟩ := acquire_error hacquire
        exact ⟨_, h.refuseRead hmay henter⟩
    · cases hstep
  | prepare t =>
    obtain ⟨i, request, rest, -, rfl⟩ := inRead_eq_some hstep
    exact ⟨c, h.inContext rfl rfl⟩
  | keepPending t =>
    simp only [step] at hstep
    split at hstep
    · rename_i hnone
      obtain ⟨i, request, rest, ht, rfl⟩ := inRead_eq_some hstep
      exact ⟨c, h.keepPending hnone (h.isDestroyed_of_reader ht)⟩
    · cases hstep
  | drain t frames =>
    obtain ⟨i, request, rest, -, rfl⟩ := inRead_eq_some hstep
    exact ⟨c, h.inContext rfl rfl⟩
  | clearPending t =>
    obtain ⟨i, request, rest, -, rfl⟩ := inRead_eq_some hstep
    exact ⟨c, h.clearPending⟩
  | endOfStream t =>
    obtain ⟨i, request, rest, -, rfl⟩ := inRead_eq_some hstep
    exact ⟨c, h.inContext rfl rfl⟩
  | leave t failure =>
    simp only [step] at hstep
    split at hstep
    · rename_i i request rest ht
      split at hstep
      · cases hstep
      have hoccupied := (h.threads t).outside (by rw [ht]; rfl)
      have hfits := h.threads t
      rw [ht] at hfits
      have hreader := hfits.inRead.2.2.1
      have hfailed : (s.readFailed || failure.isSome) = true → s.readFailed = true ∨
          Frame.reports (.returning (s.context.result failure)) = true := by
        intro hf
        cases failure with
        | none => exact .inl (by simpa using hf)
        | some e => exact .inr rfl
      cases c with
      | slot r =>
        obtain ⟨hflag, hinv⟩ := h.leave_slot ht none hfailed
        rw [hflag] at hstep
        cases hstep
        exact ⟨_, hinv⟩
      | removed v =>
        obtain ⟨hflag, hinv⟩ := h.leave_removed ht none hfailed
        rw [hflag] at hstep
        cases hstep
        exact ⟨_, hinv⟩
      | held u sweep r =>
        obtain ⟨rfl, -⟩ := h.grants_reader hreader
        exact absurd rfl (hoccupied.2.1 sweep r)
      | _ => cases hreader
    · cases hstep
  | takeOutcome t =>
    simp only [step] at hstep
    split at hstep
    · rename_i n rest ht
      cases hstep
      exact ⟨c, h.finish ht rfl rfl rfl rfl _⟩
    · rename_i e rest ht
      split at hstep
      · rename_i hslot
        cases hstep
        exact ⟨c, h.catch_empty ht hslot⟩
      · rename_i hslot
        cases hstep
        obtain ⟨-, r, rfl⟩ := h.eq_slot hslot
        exact ⟨_, h.catch_claims ht⟩
    · cases hstep
  | close t =>
    simp only [step] at hstep
    split at hstep
    · rename_i hmay
      split at hstep
      · cases hstep
      rename_i monitor henter
      split at hstep
      · rename_i hslot
        cases hstep
        have hclosed := h.deactivate_empty hslot true
        exact ⟨c, hclosed.slot, h.released, h.retries, hclosed.opened, hclosed.stuck, h.threads,
          h.monitor, h.registry, h.ledger, hclosed.closing, hclosed.failing⟩
      · rename_i hslot
        cases hstep
        obtain ⟨-, r, rfl⟩ := h.eq_slot hslot
        exact ⟨_, h.close hmay henter⟩
    · cases hstep
  | release t =>
    simp only [step] at hstep
    split at hstep
    · rename_i sweep failure x rest ht
      obtain ⟨-, r, rfl⟩ := (h.running ht rfl).placed
      cases r with
      | none =>
        obtain ⟨hnone, hinv⟩ := h.release_idle ht
        rw [hnone] at hstep
        cases hstep
        exact ⟨_, hinv⟩
      | some v =>
        obtain ⟨rfl, hsome, hinv⟩ := h.release_busy ht
        rw [hsome] at hstep
        cases hstep
        exact ⟨_, hinv⟩
    · cases hstep
  | failRelease t e =>
    simp only [step] at hstep
    split at hstep
    · rename_i sweep failure x rest ht
      cases sweep with
      | true =>
        cases hstep
        exact ⟨_, h.abandon ht _⟩
      | false =>
        cases hstep
        exact ⟨_, h.failRelease ht e⟩
    · cases hstep
  | destroy t =>
    simp only [step] at hstep
    split at hstep
    · cases hstep
      exact ⟨_, h.destroy ‹_›⟩
    · cases hstep
  | restore t =>
    simp only [step] at hstep
    split at hstep
    · cases hstep
      obtain ⟨r, hinv⟩ := h.restore ‹_› _
      exact ⟨_, hinv⟩
    · cases hstep
  | clean t =>
    simp only [step] at hstep
    split at hstep
    · rename_i failure rest ht
      have hreleased : c.isReleased = true := (h.running ht rfl).placed
      have hslot : s.session.cleanup.handle = 0 := by
        rw [h.slot]
        cases c <;> first | rfl | cases hreleased
      have hretries : ¬ c.Retries := by
        cases c <;> first | exact fun hr => hr | cases hreleased
      split at hstep
      · cases hstep
        exact ⟨c, h.finish ht rfl rfl rfl rfl _⟩
      · have hclaimed : s.runCleanup.1 = 0 := hslot
        rw [if_pos hclaimed] at hstep
        cases hstep
        exact ⟨c, (h.ranEmpty hslot hretries).finish ht rfl rfl rfl rfl _⟩
    · cases hstep
  | cleanerRun t =>
    simp only [step] at hstep
    split at hstep
    · cases hstep
    split at hstep
    · rename_i hslot
      cases hstep
      refine ⟨c, h.ranEmpty hslot fun hr => ?_⟩
      cases c with
      | slot r => exact h.ne_slot hslot r rfl
      | held u sweep r =>
        have hfits := h.threads u
        rw [hquiet u] at hfits
        exact (hfits.outside rfl).2.1 sweep r rfl
      | _ => exact hr
    · rename_i hslot
      cases hstep
      obtain ⟨-, r, rfl⟩ := h.eq_slot hslot
      exact ⟨_, h.cleanerClaims hquiet⟩
  | others registry =>
    cases hstep
    exact ⟨c, h.slot, h.released, h.retries, h.opened, h.stuck, h.threads, h.monitor,
      h.registry.of_otherUse hquiet, h.ledger, h.closing, h.failing⟩

/-- An opened session starts with its handle in the atomic. -/
theorem inv_initial {channels : ℕ} {registry : Registry} (h : RegisteredIn handle id registry) :
    Inv handle id source (.slot none)
      (System.initial handle channels registry source : System Thread) := by
  refine ⟨rfl, rfl, fun _ => rfl, fun _ _ => trivial, nofun, fun t => ?_, .free,
    .of_registeredIn h, ?_, nofun, nofun⟩
  · exact .inr ⟨.inl ⟨rfl, nofun⟩, nofun, nofun⟩
  · refine ⟨rfl, fun n => ?_, fun n => ?_, nofun, fun _ => rfl, nofun⟩
    · rw [if_neg fun hd => nomatch hd.1]
      rfl
    · rw [if_neg fun hn => absurd hn.1 (Nat.not_lt_zero n)]
      rfl

theorem Reachable.inv {channels : ℕ} {registry : Registry}
    (hregistered : RegisteredIn handle id registry)
    (h : Reachable id (.initial handle channels registry source) s) :
    ∃ c, Inv handle id source c s := by
  induction h with
  | initial => exact ⟨_, inv_initial hregistered⟩
  | step s s' action _ hstep ih =>
    obtain ⟨c, hc⟩ := ih
    exact inv_step hc hstep

end JFlac.Sessions.Pull
