import JFlac.Decode.Effects

/-!
# Fail-stop bookkeeping

What the error flag of a decode context knows about the record of the current operation, at every
point where the native code holds control. `OnRecord` is the invariant: the first reported status
is the one in the context, no PCM follows an error report, and the exception that was pending when
libFLAC returned is still the pending one. Every libFLAC call keeps it, whatever its callbacks.
-/

namespace JFlac.Decode

open Machine

variable {D : Type}

/-- The first error libFLAC reported. -/
def firstError? (events : List Event) : Option ErrorStatus := events.findSome? Event.error?

/-- After an error report nothing is handed to the consumer, and the operation does not complete. -/
def StopsAtError (events : List Event) : Prop :=
  events.Pairwise fun earlier later =>
    earlier.error?.isSome = true → later.isPcm = false ∧ later.isComplete = false

/-- The error the context has stored. -/
def DecodeContext.storedError (c : DecodeContext) : Option ErrorStatus :=
  if c.sawError then some c.firstErrorStatus else none

/-- The record of an operation that began with the history `base`, matched with the context. -/
structure Tracked (base : List Event) (m : Machine) (events : List Event) : Prop where
  history : m.history = base ++ events
  errors : firstError? events = m.context.storedError
  stops : StopsAtError events
  incomplete : ∀ e ∈ events, e.isComplete = false
  blame : m.pending ≠ none → ∃ e ∈ events, e.isFailure = true

/-- The exceptions that were pending when libFLAC returned are the pending one, and once an error
was reported, only those are pending. -/
structure Settled (m : Machine) (events : List Event) : Prop where
  kept : ∀ e ∈ events, ∀ exception, e.returnedPending = some exception → m.pending = some exception
  cause : m.context.sawError = true → ∀ exception, m.pending = some exception →
    ∃ e ∈ events, e.returnedPending = some exception

/-- The invariant between two libFLAC calls. -/
def OnRecord (base : List Event) (m : Machine) : Prop :=
  ∃ events, Tracked base m events ∧ Settled m events

/-- The record of the operation explains a failure. -/
def Blamed (base : List Event) (m : Machine) : Prop :=
  ∃ events, m.history = base ++ events ∧ ∃ e ∈ events, e.isFailure = true

/-- A failure that has just been recorded. -/
theorem Blamed.of_event {base : List Event} {m m' : Machine} {event : Event}
    (hbase : ∃ events, m.history = base ++ events) (hhistory : m'.history = m.history ++ [event])
    (hfailure : event.isFailure = true) : Blamed base m' := by
  obtain ⟨events, hevents⟩ := hbase
  exact ⟨events ++ [event], by rw [hhistory, hevents, List.append_assoc], event, by simp,
    hfailure⟩

theorem OnRecord.extends {base : List Event} {m : Machine} (h : OnRecord base m) :
    ∃ events, m.history = base ++ events := by
  obtain ⟨events, htracked, -⟩ := h
  exact ⟨events, htracked.history⟩

/-! ## Extending a record -/

/-- An explained failure stays explained. -/
theorem Blamed.adds {P : Event → Prop} {base : List Event} {m m' : Machine} (h : Blamed base m)
    (hadds : Adds P m m') : Blamed base m' := by
  obtain ⟨events, hhistory, e, he, hfailure⟩ := h
  obtain ⟨extra, hhistory', -⟩ := hadds
  exact ⟨events ++ extra, by rw [hhistory', hhistory, List.append_assoc], e,
    List.mem_append_left _ he, hfailure⟩

theorem firstError?_append (events events' : List Event) :
    firstError? (events ++ events') = (firstError? events).or (firstError? events') := by
  simp [firstError?, List.findSome?_append]

theorem firstError?_eq_none {events : List Event} :
    firstError? events = none ↔ ∀ e ∈ events, e.error? = none := by
  simp [firstError?, List.findSome?_eq_none_iff]

/-- Nothing that follows can break the rule as long as no error was reported. -/
theorem StopsAtError.of_firstError?_none {events events' : List Event}
    (hnone : firstError? events = none) (hstops : StopsAtError events') :
    StopsAtError (events ++ events') := by
  rw [firstError?_eq_none] at hnone
  refine List.pairwise_append.mpr ⟨?_, hstops, ?_⟩
  · refine List.pairwise_of_forall_mem_list ?_
    intro a ha b hb herror
    rw [hnone a ha] at herror
    cases herror
  · intro a ha b hb herror
    rw [hnone a ha] at herror
    cases herror

/-- Events that hand nothing to the consumer may always follow. -/
theorem StopsAtError.append {events events' : List Event} (hstops : StopsAtError events)
    (hquiet : ∀ e ∈ events', e.isPcm = false ∧ e.isComplete = false) :
    StopsAtError (events ++ events') :=
  List.pairwise_append.mpr ⟨hstops,
    List.pairwise_of_forall_mem_list fun _ _ b hb _ => hquiet b hb,
    fun _ _ b hb _ => hquiet b hb⟩

theorem StopsAtError.of_no_error {events : List Event} (hnone : ∀ e ∈ events, e.error? = none) :
    StopsAtError events := by
  refine List.pairwise_of_forall_mem_list ?_
  intro a ha b hb herror
  rw [hnone a ha] at herror
  cases herror

theorem storedError_eq_none {c : DecodeContext} : c.storedError = none ↔ c.sawError = false := by
  unfold DecodeContext.storedError
  cases c.sawError <;> simp

theorem storedError_of_sawError {c : DecodeContext} (h : c.sawError = true) :
    c.storedError = some c.firstErrorStatus := if_pos h

/-- A callback other than the error callback keeps the record. -/
theorem Tracked.effect {base : List Event} {m m' : Machine} {events events' : List Event}
    (h : Tracked base m events) (heffect : Effect m m' events') :
    Tracked base m' (events ++ events') := by
  have hno : ∀ e ∈ events', e.error? = none := fun e he => (heffect.ordinary e he).1
  have hstored : m'.context.storedError = m.context.storedError := by
    have hfields := heffect.errors
    simp only [DecodeContext.errorFields, Prod.mk.injEq] at hfields
    simp only [DecodeContext.storedError, hfields.1, hfields.2.1]
  refine ⟨by rw [heffect.history, h.history, List.append_assoc], ?_, ?_, ?_, ?_⟩
  · rw [firstError?_append, firstError?_eq_none.mpr hno, Option.or_none, h.errors, hstored]
  · by_cases herror : m.context.sawError = true
    · refine h.stops.append fun e he => ⟨?_, (heffect.ordinary e he).2.1⟩
      by_contra hpcm
      rw [heffect.pcm e he (by simpa using hpcm)] at herror
      cases herror
    · refine .of_firstError?_none ?_ (.of_no_error hno)
      rw [h.errors, storedError_eq_none]
      simpa using herror
  · intro e he
    exact (List.mem_append.mp he).elim (h.incomplete e) fun he => (heffect.ordinary e he).2.1
  · intro hne
    by_cases hsame : m'.pending = m.pending
    · obtain ⟨e, he, hfailure⟩ := h.blame (by rwa [← hsame])
      exact ⟨e, List.mem_append_left _ he, hfailure⟩
    · obtain ⟨e, he, hfailure⟩ := heffect.blame hsame
      exact ⟨e, List.mem_append_right _ he, hfailure⟩

/-- The error callback keeps the record: the first status stays. -/
theorem Tracked.error {base : List Event} {m : Machine} {events : List Event}
    (h : Tracked base m events) (status : ErrorStatus) :
    Tracked base (decodeErrorCallback status (m.record (.errorCallback status)))
      (events ++ [.errorCallback status]) := by
  refine ⟨?_, ?_, h.stops.append (by simp [Event.isPcm, Event.isComplete]), ?_,
    fun _ => ⟨.errorCallback status, by simp, rfl⟩⟩
  · simp [decodeErrorCallback, h.history]
  · rw [firstError?_append, h.errors]
    cases herror : m.context.sawError <;>
      simp [DecodeContext.storedError, decodeErrorCallback, DecodeContext.reportError, herror,
        firstError?, Event.error?]
  · intro e he
    rcases List.mem_append.mp he with he | he
    · exact h.incomplete e he
    · rw [List.mem_singleton.mp he]
      rfl

/-! ## libFLAC calls -/

/-- The fields that no callback touches and that decide how the operation goes on. -/
def DecodeContext.mode (c : DecodeContext) : Bool × Bool :=
  (c.decodeChainedOgg, c.chainedLinkMd5Failed)

theorem Effect.mode {m m' : Machine} {events : List Event} (h : Effect m m' events) :
    m'.context.mode = m.context.mode := congrArg (·.2.2) h.errors

/-- What holds while libFLAC runs callbacks: the record grows, and, outside chained decoding, the
exception that was pending at the start still is. -/
structure DuringCall (base : List Event) (m₀ : Machine) (events₀ : List Event) (m : Machine) :
    Prop where
  tracked : ∃ events, Tracked base m (events₀ ++ events) ∧ ∀ e ∈ events, e.returnedPending = none
  mode : m.context.mode = m₀.context.mode
  pending : m₀.context.decodeChainedOgg = false → ∀ exception, m₀.pending = some exception →
    m.pending = some exception

theorem DuringCall.start {base : List Event} {m : Machine} {events : List Event}
    (h : Tracked base m events) : DuringCall base m events m :=
  ⟨⟨[], by simpa using h, by simp⟩, rfl, fun _ _ hp => hp⟩

theorem DuringCall.error {base : List Event} {m₀ m : Machine} {events₀ : List Event}
    (h : DuringCall base m₀ events₀ m) (status : ErrorStatus) :
    DuringCall base m₀ events₀ (decodeErrorCallback status (m.record (.errorCallback status))) := by
  obtain ⟨events, htracked, hreturns⟩ := h.tracked
  refine ⟨⟨events ++ [.errorCallback status], ?_, ?_⟩, h.mode, h.pending⟩
  · simpa using htracked.error status
  · intro e he
    rcases List.mem_append.mp he with he | he
    · exact hreturns e he
    · rw [List.mem_singleton.mp he]
      rfl

theorem DuringCall.effect {base : List Event} {m₀ m m' : Machine} {events₀ events' : List Event}
    (h : DuringCall base m₀ events₀ m) (heffect : Effect m m' events') :
    DuringCall base m₀ events₀ m' := by
  obtain ⟨events, htracked, hreturns⟩ := h.tracked
  refine ⟨⟨events ++ events', ?_, ?_⟩, heffect.mode.trans h.mode, ?_⟩
  · simpa using htracked.effect heffect
  · intro e he
    exact (List.mem_append.mp he).elim (hreturns e) fun he => (heffect.ordinary e he).2.2
  · intro hchained exception hp
    have hchained' : m.context.decodeChainedOgg = false :=
      (congrArg (·.1) h.mode).trans hchained
    exact heffect.pending hchained' exception (h.pending hchained exception hp)

/-- Every callback, whatever it is. -/
theorem DuringCall.handle {base : List Event} {m₀ m : Machine} {events₀ : List Event}
    (h : DuringCall base m₀ events₀ m) (J : Jvm) (callback : Callback)
    (calls : List TransportCall) :
    DuringCall base m₀ events₀ (handle J callback (m, calls)).2.1 := by
  rcases handle_effect J callback m calls with ⟨status, rfl⟩ | ⟨events, heffect⟩
  · exact h.error status
  · exact h.effect heffect

/-- The return of a libFLAC function settles the record again, provided nothing was pending before
or the decode is not chained. -/
theorem DuringCall.returned {base : List Event} {m₀ m : Machine} {events₀ : List Event}
    (h : DuringCall base m₀ events₀ m) (hsettled : Settled m₀ events₀)
    (hm₀ : m₀.pending = none ∨ m₀.context.decodeChainedOgg = false) {api : Api}
    (hapi : api ≠ .finish) (success : Bool) (state : DecoderState) :
    OnRecord base (m.record (.returned api success state m.pending)) := by
  obtain ⟨events, htracked, hreturns⟩ := h.tracked
  have hpending : (Event.returned api success state m.pending).returnedPending = m.pending := by
    cases api <;> first | exact absurd rfl hapi | rfl
  refine ⟨events₀ ++ events ++ [.returned api success state m.pending], ?_, ?_, ?_⟩
  · refine ⟨by simp [htracked.history], ?_, ?_, ?_, ?_⟩
    · rw [firstError?_append, htracked.errors]
      simp [firstError?, Event.error?]
    · exact htracked.stops.append (by simp [Event.isPcm, Event.isComplete])
    · intro e he
      rcases List.mem_append.mp he with he | he
      · exact htracked.incomplete e he
      · rw [List.mem_singleton.mp he]
        rfl
    · intro hne
      obtain ⟨e, he, hfailure⟩ := htracked.blame hne
      exact ⟨e, List.mem_append_left _ he, hfailure⟩
  · intro e he exception hexception
    rw [record_pending]
    rcases List.mem_append.mp he with he | he
    · rcases List.mem_append.mp he with he | he
      · have hm := hsettled.kept e he exception hexception
        rcases hm₀ with hnone | hchained
        · rw [hnone] at hm
          cases hm
        · exact h.pending hchained exception hm
      · rw [hreturns e he] at hexception
        cases hexception
    · rw [List.mem_singleton.mp he, hpending] at hexception
      exact hexception
  · intro _ exception hexception
    rw [record_pending] at hexception
    exact ⟨_, List.mem_append_right _ (List.mem_singleton.mpr rfl), hpending.trans hexception⟩

/-- With an exception pending or an error reported, the record explains why. -/
theorem OnRecord.blamed {base : List Event} {m : Machine} (h : OnRecord base m)
    (hfailed : m.pending ≠ none ∨ m.context.sawError = true) : Blamed base m := by
  obtain ⟨events, htracked, -⟩ := h
  refine ⟨events, htracked.history, ?_⟩
  rcases hfailed with hpending | herror
  · exact htracked.blame hpending
  · have hfirst := htracked.errors
    rw [storedError_of_sawError herror, firstError?, List.findSome?_eq_some_iff] at hfirst
    obtain ⟨before, e, after, rfl, he, -⟩ := hfirst
    refine ⟨e, by simp, ?_⟩
    cases e <;> first | rfl | cases he

/-- What is known when a libFLAC function called in `m` has returned `r`. -/
structure AfterCall (F : LibFlac D) (base : List Event) (m : Machine) (api : Api)
    (r : Bool × Stream D × Machine) : Prop where
  record : OnRecord base r.2.2
  mode : r.2.2.context.mode = m.context.mode
  blame : ∀ pending, (Event.returned api r.1 (F.getState r.2.1.decoder) pending).isFailure = true →
    Blamed base r.2.2

theorem isFailure_returned (api : Api) (success : Bool) (state : DecoderState)
    (pending pending' : Option Throwable) :
    (Event.returned api success state pending).isFailure =
      (Event.returned api success state pending').isFailure := by
  cases api <;> rfl

theorem DuringCall.blamed {base : List Event} {m₀ m : Machine} {events₀ : List Event}
    (h : DuringCall base m₀ events₀ m) {event : Event} (hfailure : event.isFailure = true) :
    Blamed base (m.record event) := by
  obtain ⟨events, htracked, -⟩ := h.tracked
  exact ⟨events₀ ++ events ++ [event], by simp [htracked.history], event, by simp, hfailure⟩

/-- A libFLAC call keeps the record. -/
theorem OnRecord.call {base : List Event} {m : Machine} (h : OnRecord base m)
    (hm : m.pending = none ∨ m.context.decodeChainedOgg = false) (F : LibFlac D) (J : Jvm)
    (api : Api) (hapi : api ≠ .finish) (activity : Activity D) (calls : List TransportCall) :
    AfterCall F base m api (F.call J api activity calls m) := by
  obtain ⟨events, htracked, hsettled⟩ := h
  have hrun : DuringCall base m events (activity.run (handle J) (m, calls)).2.1 :=
    Lib.Calls.run_invariant
      (P := fun s : Machine × List TransportCall => DuringCall base m events s.1)
      (fun callback s hs => hs.handle J callback s.2) activity (DuringCall.start htracked)
  exact ⟨hrun.returned hsettled hm hapi _ _, hrun.mode, fun pending hfailure =>
    hrun.blamed ((isFailure_returned api _ _ _ pending).trans hfailure)⟩

/-- So does `finish_link`, called with nothing pending. -/
theorem OnRecord.callFinishLink {base : List Event} {m : Machine} (h : OnRecord base m)
    (hnone : m.pending = none) (F : LibFlac D) (s : Stream D) :
    AfterCall F base m .finishLink (F.callFinishLink s m) ∧
      (F.callFinishLink s m).2.2.pending = none := by
  obtain ⟨events, htracked, hsettled⟩ := h
  have hfold : ∀ (statuses : List ErrorStatus) (m' : Machine), DuringCall base m events m' →
      m'.pending = none →
      let after := statuses.foldl
        (fun m status => decodeErrorCallback status (m.record (.errorCallback status))) m'
      DuringCall base m events after ∧ after.pending = none := by
    intro statuses
    induction statuses with
    | nil => exact fun m' hm' hp => ⟨hm', hp⟩
    | cons status statuses ih => exact fun m' hm' hp => ih _ (hm'.error status) hp
  obtain ⟨hduring, hpending⟩ := hfold (F.finishLink s.decoder).1 m (.start htracked) hnone
  exact ⟨⟨hduring.returned hsettled (.inl hnone) (by simp) _ _, hduring.mode,
    fun pending hfailure =>
      hduring.blamed ((isFailure_returned .finishLink _ _ _ pending).trans hfailure)⟩, hpending⟩

/-- An exception raised where nothing was pending and no error was reported. -/
theorem OnRecord.throwDecode {base : List Event} {m : Machine} (h : OnRecord base m)
    (hnone : m.pending = none) (herror : m.context.sawError = false) (message : String) :
    OnRecord base (m.throwDecode message) := by
  obtain ⟨events, htracked, hsettled⟩ := h
  refine ⟨events ++ [.raised (.flacDecodeException message)], ?_, ?_, ?_⟩
  · exact htracked.effect
      (.of_internal rfl rfl hnone (by simp [Event.isInternal]) (by simp [Event.isFailure]))
  · intro e he exception hexception
    rcases List.mem_append.mp he with he | he
    · have := hsettled.kept e he exception hexception
      rw [hnone] at this
      cases this
    · rw [List.mem_singleton.mp he] at hexception
      cases hexception
  · intro hsaw
    rw [throwDecode_context, herror] at hsaw
    cases hsaw

end JFlac.Decode
