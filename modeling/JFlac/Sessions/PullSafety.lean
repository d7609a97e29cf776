import JFlac.Sessions.PullSteps

/-!
# Safety of pull sessions

What the wrapper and the registry guarantee together, read off the custody: nothing is freed twice
or under a native read, a nested read is refused without touching the outer one, and a session that
was closed or has failed never reaches native code again.
-/

namespace JFlac.Sessions.Pull

open JFlac.Handles JFlac.Lib

variable {Thread : Type} [DecidableEq Thread] {handle : ℤ} {id : ℕ} {source : PullSource}
  {c : Custody Thread} {s s' : System Thread} {t : Thread} {f : Frame} {rest : List Frame}

/-! ## What a step leaves alone -/

/-- The next frame of a call does not touch native memory. -/
theorem continue_memory (s : System Thread) (t : Thread) (f : Frame) (rest : List Frame)
    (after : After) :
    (s.continue t f rest after).context = s.context ∧
      (s.continue t f rest after).frees = s.frees := by
  cases after <;> exact ⟨rfl, rfl⟩

/-- Only a native read and a destruction touch native memory, and a read only frees what it has
drained. -/
theorem step_memory {action : Action Thread} (h : step s action = some s') :
    s'.context = s.context ∧ s'.frees = s.frees ∨
      (∃ t i request rest, s.stack t = .reading i request :: rest ∧
        (action = .clearPending t ∨ s'.frees = s.frees)) ∨
      ∃ t i after rest, s.stack t = .destroying i after :: rest := by
  cases action with
  | prepare t | drain t frames | endOfStream t =>
    obtain ⟨i, request, rest, ht, rfl⟩ := inRead_eq_some h
    exact .inr (.inl ⟨t, i, request, rest, ht, .inr rfl⟩)
  | clearPending t =>
    obtain ⟨i, request, rest, ht, rfl⟩ := inRead_eq_some h
    exact .inr (.inl ⟨t, i, request, rest, ht, .inl rfl⟩)
  | keepPending t =>
    simp only [step] at h
    split at h
    · obtain ⟨i, request, rest, ht, rfl⟩ := inRead_eq_some h
      exact .inr (.inl ⟨t, i, request, rest, ht, .inr rfl⟩)
    · cases h
  | leave t failure =>
    simp only [step] at h
    split at h
    · rename_i i request rest ht
      refine .inr (.inl ⟨t, i, request, rest, ht, .inr ?_⟩)
      split at h
      · cases h
      split at h <;> cases h <;> rfl
    · cases h
  | destroy t =>
    simp only [step] at h
    split at h
    · rename_i i after rest ht
      exact .inr (.inr ⟨t, i, after, rest, ht⟩)
    · cases h
  | release t =>
    simp only [step] at h
    split at h
    · split at h
      · cases h
        exact .inl ⟨rfl, rfl⟩
      · cases h
        exact .inl (continue_memory _ _ _ _ _)
    · cases h
  | _ =>
    simp only [step] at h
    repeat' split at h
    all_goals cases h
    all_goals exact .inl ⟨rfl, rfl⟩

/-- The thread that takes a step. -/
def Action.thread : Action Thread → Option Thread
  | .read t _ | .prepare t | .keepPending t | .drain t _ | .clearPending t | .endOfStream t
  | .leave t _ | .takeOutcome t | .close t | .release t | .failRelease t _ | .destroy t
  | .restore t | .clean t | .cleanerRun t => some t
  | .others _ => none

/-- A thread that stays where it is while another one moves. -/
theorem setStack_of_ne (s : System Thread) {u : Thread} (hne : t ≠ u) (frames : List Frame) :
    (s.setStack u frames).stack t = s.stack t := Function.update_of_ne hne _ _

theorem continue_of_ne (s : System Thread) {u : Thread} (hne : t ≠ u) (f : Frame)
    (rest : List Frame) (after : After) : (s.continue u f rest after).stack t = s.stack t := by
  cases after <;> exact Function.update_of_ne hne _ _

omit [DecidableEq Thread] in
theorem clearDecodePullPending_stack (s : System Thread) :
    s.clearDecodePullPending.stack = s.stack := by
  obtain ⟨frees, heq, -⟩ := clearDecodePullPending_spec s
  rw [heq]

omit [DecidableEq Thread] in
theorem destroyDecodeSession_stack (s : System Thread) (i : ℕ) :
    (s.destroyDecodeSession i).stack = s.stack := by
  unfold System.destroyDecodeSession
  obtain ⟨frees, heq, -⟩ := clearSource_spec { s with
    registry := s.registry.setSession i { s.registry.sessions i with hasCodec := false } }
  simp only [heq]
  show (System.clearDecodePullPending _).stack = _
  rw [clearDecodePullPending_stack]

/-- A step only moves the thread that takes it. -/
theorem step_stack_of_ne {action : Action Thread} (h : step s action = some s')
    (hne : action.thread ≠ some t) : s'.stack t = s.stack t := by
  have hother : ∀ u, action.thread = some u → t ≠ u := by
    rintro u hu rfl
    exact hne hu
  cases action with
  | prepare u | drain u frames | endOfStream u =>
    obtain ⟨i, request, rest, -, rfl⟩ := inRead_eq_some h
    rfl
  | clearPending u =>
    obtain ⟨i, request, rest, -, rfl⟩ := inRead_eq_some h
    rw [clearDecodePullPending_stack]
  | keepPending u =>
    simp only [step] at h
    split at h
    · obtain ⟨i, request, rest, -, rfl⟩ := inRead_eq_some h
      rfl
    · cases h
  | destroy u =>
    simp only [step] at h
    split at h
    · cases h
      rw [continue_of_ne _ (hother u rfl), destroyDecodeSession_stack]
    · cases h
  | release u =>
    simp only [step] at h
    split at h
    · split at h
      · cases h
        exact setStack_of_ne _ (hother u rfl) _
      · cases h
        exact continue_of_ne _ (hother u rfl) _ _ _
    · cases h
  | others registry =>
    cases h
    rfl
  | read u request | takeOutcome u | close u | leave u failure | failRelease u e | restore u
  | clean u | cleanerRun u =>
    simp only [step] at h
    repeat' split at h
    all_goals cases h
    all_goals first | rfl | exact Function.update_of_ne (hother u rfl) _ _

/-- What the rest of a failing call does: it goes on with the same exception, or throws it. -/
def Carries (s' : System Thread) (t : Thread) (rest : List Frame) (e : Throwable) : Prop :=
  (∃ f, s'.stack t = f :: rest ∧ f.failure = some e) ∨
    s'.stack t = rest ∧ s'.outcome t = some (.error e)

theorem carries_setStack (s : System Thread) {e : Throwable} (hf : f.failure = some e) :
    Carries (s.setStack t (f :: rest)) t rest e :=
  .inl ⟨f, Function.update_self _ _ _, hf⟩

theorem carries_finish (s : System Thread) (f : Frame) (e : Throwable) :
    Carries (s.finish t f rest (.error e)) t rest e :=
  .inr ⟨Function.update_self _ _ _, Function.update_self _ _ _⟩

theorem carries_continue (s : System Thread) (f : Frame) {after : After} {e : Throwable}
    (hafter : after.failure = some e) : Carries (s.continue t f rest after) t rest e := by
  cases after with
  | returning outcome => exact carries_setStack _ hafter
  | cleaning failure => exact carries_setStack _ hafter
  | swept failure =>
    obtain rfl : failure = some e := hafter
    exact carries_finish _ _ _

/-- A call that has failed throws what it has failed with. -/
theorem step_carries {action : Action Thread} (h : step s action = some s')
    (ht : s.stack t = f :: rest) {e : Throwable} (hf : f.failure = some e) :
    Carries s' t rest e := by
  by_cases hthread : action.thread = some t
  · have hmay : mayCall (s.stack t) = false := by
      rw [ht]
      cases f <;> first | rfl | cases hf
    have hread : ∀ i request rest', s.stack t ≠ .reading i request :: rest' := by
      intro i request rest' heq
      obtain ⟨rfl, -⟩ := List.cons.inj (ht.symm.trans heq)
      cases hf
    cases action with
    | others registry => cases hthread
    | read u request | close u =>
      obtain rfl := Option.some.inj hthread
      simp only [step, hmay] at h
      cases h
    | prepare u | drain u frames | endOfStream u | clearPending u =>
      obtain rfl := Option.some.inj hthread
      obtain ⟨i, request, rest', heq, -⟩ := inRead_eq_some h
      exact absurd heq (hread i request rest')
    | keepPending u =>
      obtain rfl := Option.some.inj hthread
      simp only [step] at h
      split at h
      · obtain ⟨i, request, rest', heq, -⟩ := inRead_eq_some h
        exact absurd heq (hread i request rest')
      · cases h
    | leave u failure =>
      obtain rfl := Option.some.inj hthread
      simp only [step] at h
      cases h
    | takeOutcome u =>
      obtain rfl := Option.some.inj hthread
      simp only [step] at h
      split at h
      · rename_i n rest' heq
        obtain ⟨rfl, -⟩ := List.cons.inj (ht.symm.trans heq)
        cases hf
      · rename_i e' rest' heq
        obtain ⟨rfl, rfl⟩ := List.cons.inj (ht.symm.trans heq)
        split at h <;> cases h <;> exact carries_setStack _ hf
      · cases h
    | release u =>
      obtain rfl := Option.some.inj hthread
      simp only [step] at h
      split at h
      · rename_i sweep failure x rest' heq
        obtain ⟨rfl, rfl⟩ := List.cons.inj (ht.symm.trans heq)
        have hafter : (afterRelease sweep failure).failure = some e := by
          cases sweep <;> exact hf
        split at h <;> cases h
        · exact carries_setStack _ hafter
        · exact carries_continue _ _ hafter
      · cases h
    | failRelease u e' =>
      obtain rfl := Option.some.inj hthread
      simp only [step] at h
      split at h
      · rename_i sweep failure x rest' heq
        obtain ⟨rfl, rfl⟩ := List.cons.inj (ht.symm.trans heq)
        obtain rfl : failure = some e := hf
        split at h <;> cases h
        · exact carries_finish _ _ _
        · exact carries_setStack _ rfl
      · cases h
    | destroy u =>
      obtain rfl := Option.some.inj hthread
      simp only [step] at h
      split at h
      · rename_i i after rest' heq
        obtain ⟨rfl, rfl⟩ := List.cons.inj (ht.symm.trans heq)
        cases h
        exact carries_continue _ _ hf
      · cases h
    | restore u =>
      obtain rfl := Option.some.inj hthread
      simp only [step] at h
      split at h
      · rename_i failure x e' rest' heq
        obtain ⟨rfl, rfl⟩ := List.cons.inj (ht.symm.trans heq)
        obtain rfl : failure = some e := hf
        cases h
        exact carries_finish _ _ _
      · cases h
    | clean u =>
      obtain rfl := Option.some.inj hthread
      simp only [step] at h
      split at h
      · rename_i failure rest' heq
        obtain ⟨rfl, rfl⟩ := List.cons.inj (ht.symm.trans heq)
        obtain rfl : failure = some e := hf
        split at h
        · cases h
          exact carries_finish _ _ _
        · split at h <;> cases h
          · exact carries_finish _ _ _
          · exact carries_setStack _ rfl
      · cases h
    | cleanerRun u =>
      obtain rfl := Option.some.inj hthread
      simp only [step] at h
      rw [if_pos (.inr (by rw [ht]; exact List.cons_ne_nil _ _))] at h
      cases h
  · refine .inl ⟨f, ?_, hf⟩
    rw [step_stack_of_ne h hthread, ht]

/-! ## Safety -/

/-- The request asks for frames and its array can take them. -/
def ReadRequest.Fits (request : ReadRequest) (channels : ℕ) : Prop :=
  0 < request.maxFrames ∧ request.maxFrames * channels ≤ intMax ∧
    request.maxFrames * channels ≤ request.size

/-- No call is in flight. -/
def System.Quiet (s : System Thread) : Prop := ∀ t, s.stack t = []

/-- What holds of a pull session and its native memory in every state. -/
structure PullSafe (handle : ℤ) (id : ℕ) (source : PullSource) (s : System Thread) : Prop where
  /-- Nothing is freed twice. -/
  once : ∀ q, s.frees q ≤ 1
  /-- Under a native read the session, its reference and its pending block are all there. -/
  alive : ∀ t i request, .reading i request ∈ s.stack t →
    i = id ∧ s.frees .session = 0 ∧ s.context.source = source ∧ (∀ n, s.frees (.globalRef n) = 0) ∧
      ∀ n, s.context.pullPendingSamples = some n → s.frees (.block n) = 0
  /-- No step frees anything under a native read, but for a block which that read has drained. -/
  unfreed : ∀ t i request, .reading i request ∈ s.stack t → ∀ action s', Step id s action s' →
    action = .clearPending t ∨ s'.frees = s.frees
  /-- A nested read that asks for frames fails at once with an `IllegalStateException`, or is going
  to throw the one it got from the registry. It leaves the pull state as it is. -/
  nested : ∀ t request s', s.stack t ≠ [] → request.Fits s.session.channels →
    Step id s (.read t request) s' →
      s'.context = s.context ∧ ∃ e, IllegalState (some e) ∧ Carries s' t (s.stack t) e
  /-- A nested `readInterleaved` that is under way fails with an `IllegalStateException`. -/
  fails : ∀ t f rest, s.stack t = f :: rest → rest ≠ [] → f.locked = true → IllegalState f.failure
  /-- A call that has failed throws what it has failed with. -/
  throws : ∀ t f rest e, s.stack t = f :: rest → f.failure = some e → ∀ action s',
    Step id s action s' → Carries s' t rest e
  /-- While a thread is in a nested call, nobody touches the pull state. -/
  untouched : ∀ t f rest, s.stack t = f :: rest → rest ≠ [] → ∀ action s', Step id s action s' →
    s'.context = s.context
  /-- After a close or a read that failed in native code, every read is turned away before it. -/
  ended : s.closeCalled = true ∨ s.readFailed = true → ∀ t request s',
    Step id s (.read t request) s' → s' = s.answer t (.error noLongerActive)
  /-- An active session that the Cleaner has not come for still has its handle. -/
  opened : s.session.active = true → s.cleaned = false →
    s.session.cleanup.handle = handle ∧ s.released = 0
  /-- The handle is released at most once. -/
  releasedOnce : s.released ≤ 1
  /-- When releases succeed, a session that was closed or has failed gets released. -/
  releases : s.closeCalled = true ∨ s.readFailed = true → s.Quiet → s.releaseFailed = false →
    s.released = 1
  /-- Until then the handle is kept for the Cleaner. -/
  kept : s.Quiet → s.releaseFailed = false → s.released = 0 →
    s.session.cleanup.handle = handle ∧ s.cleaned = false
  /-- What was released is freed to the last. -/
  freed : s.Quiet → s.released = 1 → s.frees .session = 1 ∧
    (∀ n, source.reference = some n → s.frees (.globalRef n) = 1) ∧
      ∀ n < s.nextBlock, s.frees (.block n) = 1

theorem Ledger.le_one {destroyed : Bool} {frees : Resource → ℕ} {nextBlock : ℕ}
    {pending : Option ℕ} {current : PullSource}
    (h : Ledger source destroyed frees nextBlock pending current) (q : Resource) : frees q ≤ 1 := by
  cases q with
  | session =>
    rw [h.session]
    split <;> omega
  | globalRef n =>
    rw [h.refs n]
    split <;> omega
  | block n =>
    rw [h.blocks n]
    split <;> omega

/-- A native read on a stack is the reader's. -/
theorem Inv.reader_of_mem (h : Inv handle id source c s) {i : ℕ} {request : ReadRequest}
    (hmem : .reading i request ∈ s.stack t) : i = id ∧ c.reader = some t := by
  have hbelow : ∀ rest, Below id c t rest → .reading i request ∈ rest →
      i = id ∧ c.reader = some t := by
    rintro rest (⟨rfl, -⟩ | ⟨request', rfl, hreader, -⟩) hmem
    · exact absurd hmem List.not_mem_nil
    · obtain ⟨rfl, -⟩ := Frame.reading.inj (List.mem_singleton.mp hmem)
      exact ⟨rfl, hreader⟩
  rcases h.threads t with ⟨f, rest, heq, hrun⟩ | ⟨hrest, -⟩
  · rw [heq] at hmem
    rcases List.mem_cons.mp hmem with rfl | hmem
    · cases hrun.calls
    · exact hbelow rest hrun.below hmem
  · exact hbelow _ hrest hmem

/-- While there is a reader, the only native memory touched is what that reader touches. -/
theorem Inv.step_reader (h : Inv handle id source c s) (hreader : c.reader = some t)
    {action : Action Thread} (hstep : step s action = some s') :
    s'.context = s.context ∧ s'.frees = s.frees ∨
      (∃ i request rest, s.stack t = .reading i request :: rest) ∧
        (action = .clearPending t ∨ s'.frees = s.frees) := by
  rcases step_memory hstep with hsame | ⟨u, i, request, rest, hu, hfrees⟩ | ⟨u, i, after, rest, hu⟩
  · exact .inl hsame
  · have hmem : .reading i request ∈ s.stack u := by
      rw [hu]
      exact List.mem_cons_self
    obtain rfl := Option.some.inj (hreader.symm.trans (h.reader_of_mem hmem).2)
    exact .inr ⟨⟨i, request, rest, hu⟩, hfrees⟩
  · obtain ⟨-, rfl⟩ := (h.running hu rfl).placed
    cases hreader

/-- When no call is in flight, custody is with the atomic or with nobody. -/
theorem Inv.quiet_cases (h : Inv handle id source c s) (hquiet : s.Quiet) :
    c = .slot none ∨ c = .abandoned ∨ c = .destroyed := by
  have hnobody : ∀ u, c.reader ≠ some u ∧ (∀ sweep r, c ≠ .held u sweep r) ∧ c ≠ .condemned u := by
    intro u
    have hfits := h.threads u
    rw [hquiet u] at hfits
    obtain ⟨hbelow, hheld, hcondemned⟩ := hfits.outside rfl
    rcases hbelow with ⟨-, hnone⟩ | ⟨request, hnil, -⟩
    · exact ⟨hnone, hheld, hcondemned⟩
    · cases hnil
  cases c with
  | slot r =>
    cases r with
    | none => exact .inl rfl
    | some u => exact absurd rfl (hnobody u).1
  | held u sweep r => exact absurd rfl ((hnobody u).2.1 sweep r)
  | abandoned => exact .inr (.inl rfl)
  | removed u => exact absurd rfl (hnobody u).1
  | condemned u => exact absurd rfl (hnobody u).2.2
  | destroyed => exact .inr (.inr rfl)

/-- A thread that gets into the monitor finds every failed read handled. -/
theorem Inv.inactive_of_enter (h : Inv handle id source c s)
    (hended : s.closeCalled = true ∨ s.readFailed = true) (hmay : mayCall (s.stack t) = true)
    {monitor : Monitor Thread} (henter : s.monitor.enter t = some monitor) :
    s.session.active = false := by
  rcases hended with hclosed | hfailed
  · exact h.closing hclosed
  rcases h.failing hfailed with hinactive | ⟨u, f, hf, hreports⟩
  · exact hinactive
  by_cases hu : u = t
  · subst hu
    rw [((h.threads u).outside hmay).1.reports f hf] at hreports
    cases hreports
  · have hunlocked := h.monitor.locked_of_enter henter hu f hf
    cases f with
    | returning outcome => cases hunlocked
    | destroying i after =>
      cases after with
      | returning outcome => cases hunlocked
      | _ => cases hreports
    | _ => cases hreports

/-- An inactive session turns every read away. -/
theorem PullSession.check_inactive {p : PullSession} (h : p.active = false)
    (request : ReadRequest) : p.check request = .error noLongerActive := if_pos (.inl h)

/-- A request that fits is let through, or the session is not active. -/
theorem PullSession.check_of_fits {p : PullSession} {request : ReadRequest}
    (h : request.Fits p.channels) :
    p.check request = .error noLongerActive ∨ p.check request = .ok (some p.cleanup.handle) := by
  obtain ⟨hpos, hmax, hsize⟩ := h
  unfold PullSession.check
  split
  · exact .inl rfl
  · rw [if_neg (not_lt.mpr hpos.le), if_neg (not_lt.mpr hmax), if_neg (not_lt.mpr hsize),
      if_neg hpos.ne']
    exact .inr rfl

theorem Inv.nested_read (h : Inv handle id source c s) {request : ReadRequest}
    (hstack : s.stack t ≠ []) (hfits : request.Fits s.session.channels)
    (hstep : step s (.read t request) = some s') :
    s'.context = s.context ∧ ∃ e, IllegalState (some e) ∧ Carries s' t (s.stack t) e := by
  simp only [step] at hstep
  split at hstep
  · rename_i hmay
    split at hstep
    · cases hstep
    rename_i monitor henter
    rcases PullSession.check_of_fits hfits with hcheck | hcheck
    · rw [hcheck] at hstep
      cases hstep
      exact ⟨rfl, noLongerActive, ⟨_, rfl⟩, .inr ⟨rfl, Function.update_self _ _ _⟩⟩
    · obtain ⟨-, -, hslot⟩ := PullSession.check_some hcheck
      obtain ⟨hhandle, r, rfl⟩ := h.eq_slot hslot
      rw [hcheck, hhandle] at hstep
      dsimp only at hstep
      split at hstep
      · rename_i i registry hacquire
        -- the registry has the outer read on its books
        obtain ⟨-, hbusy, -⟩ := h.registry.acquire hacquire
        rcases ((h.threads t).outside hmay).1 with ⟨hnil, -⟩ | ⟨request', -, hreader, -⟩
        · exact absurd hnil hstack
        · rw [hreader] at hbusy
          cases hbusy
      · rename_i e registry hacquire
        obtain ⟨rfl, -⟩ := acquire_error hacquire
        cases hstep
        exact ⟨rfl, handleNotActive, ⟨_, rfl⟩, carries_setStack _ rfl⟩
  · cases hstep

theorem Inv.pullSafe (h : Inv handle id source c s) : PullSafe handle id source s where
  once := h.ledger.le_one
  alive t i request hmem := by
    obtain ⟨rfl, hreader⟩ := h.reader_of_mem hmem
    have hdestroyed : c.isDestroyed = false := by
      cases c <;> first | rfl | cases hreader
    have hledger := h.ledger
    rw [hdestroyed] at hledger
    refine ⟨rfl, hledger.session, hledger.source_eq rfl, fun n => ?_, fun n hn => ?_⟩
    · rw [hledger.refs n]
      exact if_neg fun hd => by cases hd.1
    · rw [hledger.blocks n]
      exact if_neg fun hfree => hfree.2 hn
  unfreed t i request hmem action s' hstep := by
    obtain ⟨-, hreader⟩ := h.reader_of_mem hmem
    rcases h.step_reader hreader hstep.1 with ⟨-, hfrees⟩ | ⟨-, hfrees⟩
    · exact .inr hfrees
    · exact hfrees
  nested t request s' hstack hfits hstep := h.nested_read hstack hfits hstep.1
  fails t f rest heq hne hlocked := by
    have hfits := h.threads t
    rw [heq] at hfits
    rcases hfits with ⟨g, rest', hcons, hrun⟩ | ⟨hbelow, -⟩
    · obtain ⟨rfl, rfl⟩ := List.cons.inj hcons
      exact hrun.illegal hne hlocked
    · rcases hbelow with ⟨hnil, -⟩ | ⟨request, hcons, -⟩
      · cases hnil
      · obtain ⟨-, rfl⟩ := List.cons.inj hcons
        exact absurd rfl hne
  throws t f rest e heq hf action s' hstep := step_carries hstep.1 heq hf
  untouched t f rest heq hne action s' hstep := by
    have hfits := h.threads t
    rw [heq] at hfits
    rcases hfits with ⟨g, rest', hcons, hrun⟩ | ⟨hbelow, -⟩
    · obtain ⟨rfl, rfl⟩ := List.cons.inj hcons
      rcases hrun.below with ⟨hnil, -⟩ | ⟨request, -, hreader, -⟩
      · exact absurd hnil hne
      · rcases h.step_reader hreader hstep.1 with ⟨hcontext, -⟩ | ⟨⟨i, request', rest', ht⟩, -⟩
        · exact hcontext
        · obtain ⟨rfl, -⟩ := List.cons.inj (heq.symm.trans ht)
          cases hrun.calls
    · rcases hbelow with ⟨hnil, -⟩ | ⟨request, hcons, -⟩
      · cases hnil
      · obtain ⟨-, rfl⟩ := List.cons.inj hcons
        exact absurd rfl hne
  ended hended t request s' hstep := by
    obtain ⟨hread, -⟩ := hstep
    simp only [step] at hread
    split at hread
    · rename_i hmay
      split at hread
      · cases hread
      rename_i monitor henter
      rw [PullSession.check_inactive (h.inactive_of_enter hended hmay henter)] at hread
      exact (Option.some.inj hread).symm
    · cases hread
  opened hactive hcleaned := by
    have hslot := h.opened hactive hcleaned
    cases c with
    | slot r => exact ⟨h.slot, h.released⟩
    | _ => exact hslot.elim
  releasedOnce := by
    rw [h.released]
    split <;> omega
  releases hended hquiet hreleases := by
    have hinactive : s.session.active = false := by
      rcases hended with hclosed | hfailed
      · exact h.closing hclosed
      · rcases h.failing hfailed with hinactive | ⟨u, f, hf, -⟩
        · exact hinactive
        · rw [hquiet u] at hf
          exact absurd hf List.not_mem_nil
    have hstuck : ¬ c.Stuck s.session.active := fun hc => by
      rw [h.stuck hc] at hreleases
      cases hreleases
    rcases h.quiet_cases hquiet with rfl | rfl | rfl
    · exact absurd hinactive hstuck
    · exact absurd trivial hstuck
    · exact h.released
  kept hquiet hreleases hreleased := by
    rcases h.quiet_cases hquiet with rfl | rfl | rfl
    · exact ⟨h.slot, h.retries trivial⟩
    · rw [h.stuck trivial] at hreleases
      cases hreleases
    · rw [h.released] at hreleased
      cases hreleased
  freed hquiet hreleased := by
    have hcount := h.released
    rcases h.quiet_cases hquiet with rfl | rfl | rfl
    · rw [hreleased] at hcount
      cases hcount
    · rw [hreleased] at hcount
      cases hcount
    · refine ⟨h.ledger.session, fun n hn => ?_, fun n hn => ?_⟩
      · rw [h.ledger.refs n]
        exact if_pos ⟨rfl, hn⟩
      · rw [h.ledger.blocks n]
        refine if_pos ⟨hn, ?_⟩
        rw [h.ledger.cleared rfl]
        simp

/-- **Pull sessions under re-entrancy.** In every interleaving of reads, closes, failing releases
and the Cleaner, with calls nested inside native reads and other sessions at work on the registry,
the native session and what it owns are freed once and never under a native read, a nested read
fails without touching the outer one, and a session that has ended is released once and not read
again. -/
theorem pullSession_safe {channels : ℕ} {registry : Registry}
    (hregistered : RegisteredIn handle id registry)
    (h : Reachable id (.initial handle channels registry source) s) :
    PullSafe handle id source s := by
  obtain ⟨c, hc⟩ := h.inv hregistered
  exact hc.pullSafe

/-- The registry with one session. -/
def soleRegistry : Registry := ((registerDecodeSession .empty 0).map Prod.snd).getD .empty

theorem registeredIn_soleRegistry : RegisteredIn 1 0 soleRegistry := ⟨[], .initial, rfl, rfl, rfl⟩

/-- A source that calls its session, ignores the failure, and lets the outer read end. -/
theorem pullSession_safe_nestedRead :
    ∃ s : System Bool, Reachable 0 (.initial 1 2 soleRegistry (.inputStream 7)) s ∧ s.Quiet ∧
      s.released = 1 ∧ s.outcome false = some (.ok 4) ∧ PullSafe 1 0 (.inputStream 7) s := by
  have hopened : Reachable 0 (.initial 1 2 soleRegistry (.inputStream 7)) _ :=
    .step _ _ (.keepPending false) (.step _ _ (.prepare false)
      (.step _ _ (.read false ⟨0, 8, 4⟩) .initial ⟨rfl, trivial⟩) ⟨rfl, trivial⟩) ⟨rfl, trivial⟩
  have hnested : Reachable 0 (.initial 1 2 soleRegistry (.inputStream 7)) _ :=
    .step _ _ (.clean false) (.step _ _ (.release false) (.step _ _ (.takeOutcome false)
      (.step _ _ (.read false ⟨1, 8, 4⟩) hopened ⟨rfl, trivial⟩) ⟨rfl, trivial⟩)
        ⟨rfl, trivial⟩) ⟨rfl, trivial⟩
  have hclosed : Reachable 0 (.initial 1 2 soleRegistry (.inputStream 7)) _ :=
    .step _ _ (.close true) (.step _ _ (.takeOutcome false) (.step _ _ (.destroy false)
      (.step _ _ (.leave false none) (.step _ _ (.clearPending false)
        (.step _ _ (.drain false 4) hnested ⟨rfl, trivial⟩) ⟨rfl, trivial⟩) ⟨rfl, trivial⟩)
          ⟨rfl, trivial⟩) ⟨rfl, trivial⟩) ⟨rfl, trivial⟩
  exact ⟨_, hclosed, fun t => by cases t <;> rfl, rfl, rfl,
    pullSession_safe registeredIn_soleRegistry hclosed⟩

/-- A block is freed under the native read that has drained it, and a nested read into an array
that is too short fails with another exception. -/
theorem pullSession_nestedShortArray :
    ∃ s s' : System Unit, Reachable 0 (.initial 1 2 soleRegistry (.inputStream 7)) s ∧
      .reading 0 ⟨0, 8, 4⟩ ∈ s.stack () ∧ s.frees (.block 0) = 1 ∧
      Step 0 s (.read () ⟨1, 0, 1⟩) s' ∧ s'.stack () = s.stack () ∧
      s'.outcome () = some (.error (.illegalArgumentException
        "Interleaved sample buffer must fit maxFrames * channels.")) := by
  have hdrained : Reachable 0 (.initial 1 2 soleRegistry (.inputStream 7)) _ :=
    .step _ _ (.clearPending ()) (.step _ _ (.drain () 2) (.step _ _ (.keepPending ())
      (.step _ _ (.prepare ()) (.step _ _ (.read () ⟨0, 8, 4⟩) .initial ⟨rfl, trivial⟩)
        ⟨rfl, trivial⟩) ⟨rfl, trivial⟩) ⟨rfl, trivial⟩) ⟨rfl, trivial⟩
  exact ⟨_, _, hdrained, List.mem_cons_self, rfl, ⟨rfl, trivial⟩, rfl, rfl⟩

end JFlac.Sessions.Pull
