import JFlac.Decode.Processed

/-!
# How a decode ends

The requirement on the events of one operation (`FailStop`, and `DecodeEnds` for the operations
that call `onComplete`), the ways in which a record can be closed, and the ends of the one-shot
operations.
-/

namespace JFlac.Decode

open Machine

variable {D : Type}

/-! ## How an operation ends -/

/-- The message names an error status. -/
def Names (message : String) (status : ErrorStatus) : Prop :=
  ∃ before after : String, message = before ++ decoderErrorStatusName status ++ after

/-- The operation completed exactly once, as its last event. -/
def Completes (events : List Event) : Prop :=
  ∃ before, events = before ++ [.java .onComplete .returned] ∧ ∀ e ∈ before, e.isComplete = false

/-- Fail-stop, for the events of one operation: nothing follows an error report, an operation with an
error report is over and ends with an exception and without completing, an exception pending when
libFLAC returned is the one the caller sees, and otherwise the exception names the first reported
error. -/
structure FailStop (events : List Event) (finished : Bool) (pending : Option Throwable) : Prop where
  stops : StopsAtError events
  incomplete : firstError? events ≠ none → ∀ e ∈ events, e.isComplete = false
  ends : firstError? events ≠ none → finished = true
  raises : firstError? events ≠ none → pending ≠ none
  kept : ∀ e ∈ events, ∀ exception, e.returnedPending = some exception → pending = some exception
  named : (∀ e ∈ events, e.returnedPending = none) →
    ∀ status, firstError? events = some status →
      ∃ message, pending = some (.flacDecodeException message) ∧ Names message status

/-- The end of a callback-driven operation: it is fail-stop, and without a failure it completes. -/
structure DecodeEnds (events : List Event) (finished : Bool) (pending : Option Throwable) : Prop
    extends FailStop events finished pending where
  completes : finished = true → (∀ e ∈ events, e.isFailure = false) →
    pending = none ∧ Completes events

/-- An operation that began with the history `base` has stopped in `m`. -/
def Stopped (base : List Event) (finished : Bool) (m : Machine) : Prop :=
  ∃ events, m.history = base ++ events ∧ FailStop events finished m.pending

/-- A callback-driven operation that began with the history `base` has reached `m`. -/
def Ended (base : List Event) (finished : Bool) (m : Machine) : Prop :=
  ∃ events, m.history = base ++ events ∧ DecodeEnds events finished m.pending

theorem Ended.stopped {base : List Event} {finished : Bool} {m : Machine}
    (h : Ended base finished m) : Stopped base finished m := by
  obtain ⟨events, hhistory, hends⟩ := h
  exact ⟨events, hhistory, hends.toFailStop⟩

/-- Events that end an operation: no PCM, no error, no return of libFLAC from callbacks. -/
def Event.Trailing (e : Event) : Prop := e.Ordinary ∧ e.isPcm = false

/-- Events that say nothing of libFLAC. -/
def Event.Harmless (e : Event) : Prop := e.error? = none ∧ e.returnedPending = none

theorem FailStop.of_harmless {events : List Event} {finished : Bool} {pending : Option Throwable}
    (h : ∀ e ∈ events, e.Harmless) : FailStop events finished pending := by
  have hfirst := firstError?_eq_none.mpr fun e he => (h e he).1
  refine ⟨.of_no_error fun e he => (h e he).1, fun h => absurd hfirst h,
    fun h => absurd hfirst h, fun h => absurd hfirst h, ?_, ?_⟩
  · intro e he exception hexception
    rw [(h e he).2] at hexception
    cases hexception
  · intro _ status h
    rw [hfirst] at h
    cases h

/-- An explained failure leaves nothing to show about completion. -/
theorem Blamed.not_unfailed {base : List Event} {m : Machine} {events : List Event}
    (h : Blamed base m) (hhistory : m.history = base ++ events)
    (hno : ∀ e ∈ events, e.isFailure = false) : False := by
  obtain ⟨events', hhistory', e, he, hfailure⟩ := h
  obtain rfl : events = events' := List.append_cancel_left (hhistory.symm.trans hhistory')
  rw [hno e he] at hfailure
  cases hfailure

/-- The events of a record with nothing pending and no error. -/
theorem OnRecord.harmless {base : List Event} {m : Machine} (h : OnRecord base m)
    (hnone : m.pending = none) (herror : m.context.sawError = false) :
    ∃ events, m.history = base ++ events ∧
      ∀ e ∈ events, e.Harmless ∧ e.isComplete = false := by
  obtain ⟨events, htracked, hsettled⟩ := h
  refine ⟨events, htracked.history, fun e he => ⟨⟨?_, ?_⟩, htracked.incomplete e he⟩⟩
  · exact firstError?_eq_none.mp (htracked.errors.trans (storedError_eq_none.mpr herror)) e he
  · by_contra hne
    obtain ⟨exception, hexception⟩ := Option.ne_none_iff_exists'.mp hne
    have := hsettled.kept e he exception hexception
    rw [hnone] at this
    cases this

/-- Nothing pending and no error, but the operation fails for another reason. -/
theorem OnRecord.ended_of_clean {base : List Event} {m m' : Machine} (h : OnRecord base m)
    (hnone : m.pending = none) (herror : m.context.sawError = false)
    (hadds : Adds Event.Harmless m m') (hblame : Blamed base m') : Ended base true m' := by
  obtain ⟨events, hhistory, hevents⟩ := h.harmless hnone herror
  obtain ⟨extra, hhistory', hextra⟩ := hadds
  have hall : m'.history = base ++ (events ++ extra) := by
    rw [hhistory', hhistory, List.append_assoc]
  exact ⟨events ++ extra, hall, .of_harmless fun e he =>
    (List.mem_append.mp he).elim (fun he => (hevents e he).1) (hextra e),
    fun _ hno => (hblame.not_unfailed hall hno).elim⟩

/-- Nothing pending and no error, and the operation calls `onComplete` last. -/
theorem OnRecord.ended_of_complete {base : List Event} {m m' : Machine} (h : OnRecord base m)
    (hnone : m.pending = none) (herror : m.context.sawError = false)
    (hadds : Adds (fun e => e.Harmless ∧ e.isComplete = false) m m') (hnone' : m'.pending = none)
    (J : Jvm) : Ended base true (m'.callJava J .onComplete) := by
  obtain ⟨events, hhistory, hevents⟩ := h.harmless hnone herror
  obtain ⟨extra, hhistory', hextra⟩ := hadds
  have hall : m'.history = base ++ (events ++ extra) := by
    rw [hhistory', hhistory, List.append_assoc]
  have hmem : ∀ e ∈ events ++ extra, e.Harmless ∧ e.isComplete = false := fun e he =>
    (List.mem_append.mp he).elim (hevents e) (hextra e)
  have hharmless : ∀ outcome, ∀ e ∈ events ++ extra ++ [.java .onComplete outcome],
      e.Harmless := by
    intro outcome e he
    refine (List.mem_append.mp he).elim (fun he => (hmem e he).1) fun he => ?_
    rw [List.mem_singleton.mp he]
    exact ⟨rfl, rfl⟩
  rcases callJava_cases J .onComplete hnone' with heq | ⟨exception, heq⟩
  · refine ⟨events ++ extra ++ [.java .onComplete .returned], ?_, .of_harmless (hharmless _), ?_⟩
    · rw [heq, record_history, hall, List.append_assoc]
    · rw [heq]
      exact fun _ _ => ⟨hnone', events ++ extra, rfl, fun e he => (hmem e he).2⟩
  · refine ⟨events ++ extra ++ [.java .onComplete (.threw exception)], ?_,
      .of_harmless (hharmless _), ?_⟩
    · rw [heq]
      simp [hall]
    · intro _ hno
      exact absurd (hno (.java .onComplete (.threw exception)) (by simp)) (by simp [Event.isFailure])

/-- The events of a settled record, with trailing events after them. -/
theorem firstError?_trailing {base : List Event} {m : Machine} {events extra : List Event}
    (h : Tracked base m events) (hextra : ∀ e ∈ extra, e.Trailing) :
    firstError? (events ++ extra) = m.context.storedError := by
  rw [firstError?_append, firstError?_eq_none.mpr fun e he => (hextra e he).1.1, Option.or_none,
    h.errors]

theorem Tracked.trailing_stops {base : List Event} {m : Machine} {events extra : List Event}
    (h : Tracked base m events) (hextra : ∀ e ∈ extra, e.Trailing) :
    StopsAtError (events ++ extra) ∧ ∀ e ∈ events ++ extra, e.isComplete = false :=
  ⟨h.stops.append fun e he => ⟨(hextra e he).2, (hextra e he).1.2.1⟩,
    fun e he => (List.mem_append.mp he).elim (h.incomplete e) fun he => (hextra e he).1.2.1⟩

/-- An exception is pending and stays so. -/
theorem OnRecord.ended_of_pending {base : List Event} {m m' : Machine} {exception : Throwable}
    (h : OnRecord base m) (hpending : m.pending = some exception)
    (hadds : Adds Event.Trailing m m') (hpending' : m'.pending = some exception) :
    Ended base true m' := by
  obtain ⟨events, htracked, hsettled⟩ := h
  obtain ⟨extra, hhistory, hextra⟩ := hadds
  have hstops := htracked.trailing_stops hextra
  refine ⟨events ++ extra, by rw [hhistory, htracked.history, List.append_assoc],
    ⟨hstops.1, fun _ => hstops.2, fun _ => rfl, fun _ => by simp [hpending'], ?_, ?_⟩, ?_⟩
  · intro e he t ht
    rcases List.mem_append.mp he with he | he
    · rw [hpending', ← hpending]
      exact hsettled.kept e he t ht
    · rw [(hextra e he).1.2.2] at ht
      cases ht
  · intro hreturns status hstatus
    rw [firstError?_trailing htracked hextra] at hstatus
    have hsaw : m.context.sawError = true := by
      by_contra hsaw
      rw [storedError_eq_none.mpr (by simpa using hsaw)] at hstatus
      cases hstatus
    obtain ⟨e, he, he'⟩ := hsettled.cause hsaw exception hpending
    rw [hreturns e (List.mem_append_left _ he)] at he'
    cases he'
  · intro _ hno
    obtain ⟨e, he, hfailure⟩ := htracked.blame (by simp [hpending])
    exact absurd (hno e (List.mem_append_left _ he)) (by simp [hfailure])

/-- An error was reported and nothing is pending: the synthetic exception names the error. -/
theorem OnRecord.ended_of_error {base : List Event} {m m' : Machine} {message : String}
    (h : OnRecord base m) (hnone : m.pending = none) (herror : m.context.sawError = true)
    (hadds : Adds Event.Trailing m m')
    (hpending' : m'.pending = some (.flacDecodeException message))
    (hnames : Names message m.context.firstErrorStatus) : Ended base true m' := by
  have hblame := h.blamed (.inr herror)
  obtain ⟨events, htracked, hsettled⟩ := h
  have hfailed : ∃ e ∈ events, e.isFailure = true := by
    obtain ⟨events', hhistory, hfailed⟩ := hblame
    rwa [List.append_cancel_left (htracked.history.symm.trans hhistory)]
  obtain ⟨extra, hhistory, hextra⟩ := hadds
  have hstops := htracked.trailing_stops hextra
  refine ⟨events ++ extra, by rw [hhistory, htracked.history, List.append_assoc],
    ⟨hstops.1, fun _ => hstops.2, fun _ => rfl, fun _ => by simp [hpending'], ?_, ?_⟩, ?_⟩
  · intro e he t ht
    rcases List.mem_append.mp he with he | he
    · have := hsettled.kept e he t ht
      rw [hnone] at this
      cases this
    · rw [(hextra e he).1.2.2] at ht
      cases ht
  · intro _ status hstatus
    rw [firstError?_trailing htracked hextra, storedError_of_sawError herror] at hstatus
    obtain rfl : m.context.firstErrorStatus = status := Option.some.inj hstatus
    exact ⟨message, hpending', hnames⟩
  · intro _ hno
    obtain ⟨e, he, hfailure⟩ := hfailed
    exact absurd (hno e (List.mem_append_left _ he)) (by simp [hfailure])

/-- A loop that is still running: with nothing pending, no error was reported. -/
theorem OnRecord.ended_of_running {base : List Event} {m : Machine} (h : OnRecord base m)
    (hnone : m.pending = none) (herror : m.context.sawError = false) : Ended base false m := by
  obtain ⟨events, hhistory, hevents⟩ := h.harmless hnone herror
  exact ⟨events, hhistory, .of_harmless fun e he => (hevents e he).1, nofun⟩

/-! ## Messages -/

/-- libFLAC's state strings are short. -/
def ShortStates (F : LibFlac D) : Prop :=
  ∀ d text, F.getResolvedStateString d = some text → text.length ≤ 100

theorem decoderErrorStatusName_length (status : ErrorStatus) :
    (decoderErrorStatusName status).length ≤ 20 := by
  cases status <;> decide

theorem snprintf_of_short {text : String} (h : text.length ≤ 255) : snprintf text = text := by
  unfold snprintf messageBufferSize
  rw [List.take_of_length_le (by rw [String.length_toList]; omega), String.ofList_toList]

theorem snprintf_length (text : String) : (snprintf text).length ≤ text.length := by
  simp only [snprintf, String.length_ofList, List.length_take, String.length_toList]
  exact Nat.min_le_right _ _

theorem copyResolvedDecoderState_length {state : Option String} {n : ℕ}
    (h : ∀ text, state = some text → text.length ≤ n) :
    ∀ text, copyResolvedDecoderState state = some text → text.length ≤ n := by
  intro text htext
  unfold copyResolvedDecoderState at htext
  cases state with
  | none => cases htext
  | some state =>
    dsimp only at htext
    split at htext
    · cases htext
    · obtain rfl := Option.some.inj htext
      exact Nat.le_trans (snprintf_length state) (h state rfl)

theorem length_append_le {what suffix : String} {n k : ℕ} (hwhat : what.length ≤ n)
    (hsuffix : suffix.length ≤ k) : (what ++ suffix).length ≤ n + k := by
  rw [String.length_append]
  omega

/-- After an error, the failure text of an operation names it. -/
theorem failureMessage_names {what : String} {state : Option String} {c : DecodeContext}
    (hwhat : what.length ≤ 80) (hstate : ∀ text, state = some text → text.length ≤ 100)
    (herror : c.sawError = true) : Names (failureMessage what state c) c.firstErrorStatus := by
  have hstateText : (stateText state).length ≤ 102 := by
    cases state with
    | none => decide
    | some text =>
      have := hstate text rfl
      simp only [stateText, String.length_append]
      have : (": " : String).length = 2 := by decide
      omega
  refine ⟨what ++ stateText state ++ " (decoder error callback: ", ")" ++ ".", ?_⟩
  unfold failureMessage errorText
  rw [if_pos herror, snprintf_of_short]
  · simp only [String.append_assoc]
  · have hname := decoderErrorStatusName_length c.firstErrorStatus
    have h₁ : (" (decoder error callback: " : String).length = 26 := by decide
    have h₂ : (")" : String).length = 1 := by decide
    have h₃ : ("." : String).length = 1 := by decide
    simp only [String.length_append, h₁, h₂, h₃]
    omega

/-! ## One-shot operations -/

theorem reportIf_pending {m : Machine} {exception : Throwable} (h : m.pending = some exception)
    (condition : Bool) (message : String) : m.reportIf condition message = m :=
  if_neg (by simp [exceptionCheck, h])

theorem reportIf_false (message : String) (m : Machine) : m.reportIf false message = m :=
  if_neg (by simp)

theorem reportIf_true {m : Machine} (h : m.pending = none) (message : String) :
    m.reportIf true message = m.report message :=
  if_pos (by simp [exceptionCheck, h])

/-- With an exception pending, no report is made. -/
theorem reportFailure_pending {m : Machine} {exception : Throwable}
    (h : m.pending = some exception) (what : String) (checkMd5 success finished : Bool)
    (state : Option String) : reportFailure what checkMd5 success finished state m = m := by
  simp only [reportFailure, reportIf_pending h]

theorem trailing_finish (success : Bool) (state : DecoderState) (pending : Option Throwable) :
    (Event.returned .finish success state pending).Trailing :=
  ⟨⟨rfl, rfl, rfl⟩, rfl⟩

theorem trailing_reported (exception : Throwable) : (Event.reported exception).Trailing :=
  ⟨⟨rfl, rfl, rfl⟩, rfl⟩

theorem callFinish_adds (F : LibFlac D) (s : Stream D) (m : Machine) :
    Adds Event.Trailing m (F.callFinish s m).2 :=
  .single (record_history _ _) (trailing_finish _ _ _)

theorem Event.Trailing.harmless {e : Event} (h : e.Trailing) : e.Harmless := ⟨h.1.1, h.1.2.2⟩

/-- A `finish` that fails is an explanation. -/
theorem OnRecord.blamed_of_finish {base : List Event} {m : Machine} {F : LibFlac D} {s : Stream D}
    (h : OnRecord base m) (hfinish : (F.callFinish s m).1 ≠ true) :
    Blamed base (F.callFinish s m).2 := by
  refine .of_event h.extends (record_history _ _) ?_
  simpa [Event.isFailure, LibFlac.callFinish] using hfinish

/-- The end of a one-shot decode whose loop has returned. -/
theorem finishDecode_ended {F : LibFlac D} (hstates : ShortStates F) (J : Jvm) {what : String}
    (hwhat : what.length ≤ 30) (checkMd5 success : Bool) {base : List Event} {m₀ m : Machine}
    {s : Stream D} (h : Processed base m₀ (some success, s, m)) :
    Ended base true (finishDecode F J what checkMd5 success s m) := by
  unfold finishDecode
  dsimp only
  have hadds := callFinish_adds F s m
  have hpending : (F.callFinish s m).2.pending = m.pending := rfl
  have hcontext : (F.callFinish s m).2.context = m.context := rfl
  have hfailed : (F.callFinish s m).1 ≠ true → Blamed base (F.callFinish s m).2 :=
    h.record.blamed_of_finish
  generalize F.callFinish s m = finish at hadds hpending hcontext hfailed
  cases hm : m.pending with
  | some exception =>
    have hfinish := hpending.trans hm
    rw [reportFailure_pending hfinish, if_neg (by simp [exceptionCheck, hfinish])]
    exact h.record.ended_of_pending hm hadds hfinish
  | none =>
    have hfinish := hpending.trans hm
    by_cases herror : m.context.sawError = true
    · -- the loop cannot have succeeded, and no MD5 failure was noted
      have hsuccess : success = false := by
        cases success with
        | false => rfl
        | true => exact absurd (h.success rfl hm) (by simp [herror])
      have hmd5 : finish.2.context.chainedLinkMd5Failed = false := by
        by_contra hmd5
        rw [hcontext] at hmd5
        exact absurd (h.md5 (by simpa using hmd5)).1 (by simp [herror])
      have hlength : (what ++ " failed").length ≤ 80 :=
        Nat.le_trans (length_append_le hwhat (by decide)) (by decide : 30 + 7 ≤ 80)
      have hnames : Names (failureMessage (what ++ " failed")
          (copyResolvedDecoderState (F.getResolvedStateString s.decoder)) finish.2.context) _ :=
        failureMessage_names hlength (copyResolvedDecoderState_length (hstates s.decoder))
          (by rw [hcontext, herror])
      generalize hmessage : failureMessage (what ++ " failed") _ finish.2.context = message
        at hnames
      have hreport : reportFailure what checkMd5 success finish.1
          (copyResolvedDecoderState (F.getResolvedStateString s.decoder)) finish.2 =
            finish.2.report message := by
        simp only [reportFailure, hmd5, hsuccess, Bool.false_and, reportIf_false, Bool.not_false,
          reportIf_true hfinish, hmessage]
      rw [hreport, if_neg (by simp [exceptionCheck])]
      exact h.record.ended_of_error hm herror
        (hadds.trans (.single (report_history _ _) (trailing_reported _))) (report_pending _ _)
        (by rw [← hcontext]; exact hnames)
    · rw [Bool.not_eq_true] at herror
      have hharmless := hadds.mono fun _ => Event.Trailing.harmless
      by_cases hgood : success = true ∧ finish.1 = true
      · have hmd5 : finish.2.context.chainedLinkMd5Failed = false := by
          by_contra hmd5
          rw [hcontext] at hmd5
          have := (h.md5 (by simpa using hmd5)).2
          rw [hgood.1] at this
          cases this
        have hsame : reportFailure what checkMd5 success finish.1
            (copyResolvedDecoderState (F.getResolvedStateString s.decoder)) finish.2 =
              finish.2 := by
          simp only [reportFailure, hmd5, hgood, Bool.false_and, Bool.not_true, Bool.and_false,
            reportIf_false]
        rw [hsame, if_pos (by simp [exceptionCheck, hfinish, hgood])]
        exact h.record.ended_of_complete hm herror
          (hadds.mono fun _ h => ⟨h.harmless, h.1.2.1⟩) hfinish J
      · rw [if_neg (by simp only [Bool.and_eq_true]; tauto)]
        refine h.record.ended_of_clean hm herror
          (hharmless.trans (reportFailure_adds (fun _ => ⟨rfl, rfl⟩) what checkMd5 success finish.1 _
            finish.2)) ?_
        refine Blamed.adds (P := Event.Harmless) ?_ (reportFailure_adds (fun _ => ⟨rfl, rfl⟩) what
          checkMd5 success finish.1 _ finish.2)
        by_cases hsuccess : success = true
        · exact hfailed (by tauto)
        · exact (h.blame (by simp [hsuccess])).adds hadds

/-- A loop that has returned, or is still running, before the end of a one-shot decode. -/
theorem processAndFinish_ended {F : LibFlac D} (hstates : ShortStates F) (J : Jvm) (fuel : ℕ)
    {what : String} (hwhat : what.length ≤ 30) (checkMd5 : Bool) (s : Stream D)
    {base : List Event} {m : Machine} (h : Ready base m) (hnone : m.pending = none) :
    Ended base (processAndFinish F J fuel what checkMd5 s m).finished
      (processAndFinish F J fuel what checkMd5 s m).machine := by
  have hprocessed := processDecodeStream_processed F J fuel s h (.inl hnone)
  unfold processAndFinish
  generalize processDecodeStream F J fuel s m = r at hprocessed
  obtain ⟨_ | success, s', m'⟩ := r
  · obtain ⟨hrunning, herror⟩ := hprocessed.running rfl
    exact hprocessed.record.ended_of_running hrunning herror
  · exact finishDecode_ended hstates J hwhat checkMd5 success hprocessed

/-- A metadata pass or a seek that failed. -/
theorem abandonDecode_ended {F : LibFlac D} (hstates : ShortStates F) {failure : String}
    (hfailure : failure.length ≤ 80) (s : Stream D) {base : List Event} {m : Machine}
    (h : OnRecord base m) (hblame : Blamed base m) :
    Ended base (abandonDecode F failure s m).finished (abandonDecode F failure s m).machine := by
  unfold abandonDecode
  dsimp only
  cases hm : m.pending with
  | some exception =>
    rw [reportIf_pending hm]
    exact h.ended_of_pending hm (callFinish_adds F s m) hm
  | none =>
    rw [reportIf_true hm]
    generalize hmessage : failureMessage failure (F.getResolvedStateString s.decoder) m.context =
      message
    have hadds : Adds Event.Trailing m (F.callFinish s (m.report message)).2 :=
      Adds.trans (.single (report_history m message) (trailing_reported _))
        (callFinish_adds F s _)
    by_cases herror : m.context.sawError = true
    · refine h.ended_of_error hm herror hadds (report_pending m message) ?_
      rw [← hmessage]
      exact failureMessage_names hfailure (hstates s.decoder) herror
    · exact h.ended_of_clean hm (by simpa using herror)
        (hadds.mono fun _ => Event.Trailing.harmless) (hblame.adds hadds)

/-- The seek of a one-shot decode, which may be skipped. -/
theorem seekToFirstSample_after {base : List Event} {m : Machine} (h : OnRecord base m)
    (hnone : m.pending = none) (F : LibFlac D) (J : Jvm) (firstSample : ℤ) (s : Stream D) :
    AfterCall F base m .seekAbsolute (seekToFirstSample F J firstSample s m) := by
  unfold seekToFirstSample
  split
  · exact ⟨h, rfl, nofun⟩
  · exact h.call (.inl hnone) F J .seekAbsolute (by simp) _ _

/-- The same three checks, in the order of the entry points. -/
theorem AfterCall.blamed_of_exit {F : LibFlac D} {base : List Event} {m : Machine} {api : Api}
    {r : Bool × Stream D × Machine} (h : AfterCall F base m api r)
    (hcheck : (r.2.2.exceptionCheck || !r.1 || r.2.2.context.sawError) = true) :
    Blamed base r.2.2 := by
  refine h.blamed_of_check ?_
  simp only [Bool.or_eq_true] at hcheck ⊢
  tauto

theorem exit_cases {m : Machine} {success : Bool}
    (h : ¬ (m.exceptionCheck || !success || m.context.sawError) = true) :
    m.pending = none ∧ success = true ∧ m.context.sawError = false := by
  simp only [Bool.or_eq_true, Bool.not_eq_true', not_or, Bool.not_eq_false, Bool.not_eq_true] at h
  exact ⟨exceptionCheck_eq_false.mp h.1.1, h.1.2, h.2⟩

/-- The seek and everything after it. -/
theorem seekAndProcess_ended {F : LibFlac D} (hstates : ShortStates F) (J : Jvm) (fuel : ℕ)
    {what : String} (hwhat : what.length ≤ 30) (request : DecodeRequest) (s : Stream D)
    {base : List Event} {m : Machine} (h : Ready base m) (hnone : m.pending = none) :
    Ended base (seekAndProcess F J fuel what request s m).finished
      (seekAndProcess F J fuel what request s m).machine := by
  unfold seekAndProcess
  dsimp only
  have hseek := seekToFirstSample_after h.record hnone F J request.firstSample s
  generalize seekToFirstSample F J request.firstSample s m = seek at hseek
  split
  · rename_i hcheck
    exact abandonDecode_ended hstates
      (Nat.le_trans (length_append_le hwhat (by decide)) (by decide : 30 + 21 ≤ 80)) _
      hseek.record (hseek.blamed_of_exit hcheck)
  · rename_i hcheck
    obtain ⟨hseekNone, -, herror⟩ := exit_cases hcheck
    exact processAndFinish_ended hstates J fuel hwhat _ _
      ⟨hseek.record, .inl hseekNone, fun _ => herror, (md5_of_mode hseek.mode).trans h.md5⟩
      hseekNone

/-- A one-shot decode from the initialised decoder on. -/
theorem decodeInitialised_ended {F : LibFlac D} (hstates : ShortStates F) (J : Jvm) (fuel : ℕ)
    {what : String} (hwhat : what.length ≤ 30) (request : DecodeRequest) (s : Stream D)
    {base : List Event} {m : Machine} (h : Ready base m) (hnone : m.pending = none) :
    Ended base (decodeInitialised F J fuel what request s m).finished
      (decodeInitialised F J fuel what request s m).machine := by
  unfold decodeInitialised
  dsimp only
  split
  swap
  · exact processAndFinish_ended hstates J fuel hwhat _ s h hnone
  have hcall := h.record.call (.inl hnone) F J .processUntilEndOfMetadata (by simp)
    (F.processUntilEndOfMetadata s.decoder) s.transportCalls
  generalize F.call J .processUntilEndOfMetadata _ _ m = metadata at hcall
  split
  · rename_i hcheck
    exact abandonDecode_ended hstates
      (Nat.le_trans (length_append_le hwhat (by decide)) (by decide : 30 + 30 ≤ 80)) _
      hcall.record (hcall.blamed_of_exit hcheck)
  rename_i hcheck
  obtain ⟨hmetadata, -, herror⟩ := exit_cases hcheck
  have hfinish := callFinish_adds F metadata.2.1 metadata.2.2
  split
  · refine hcall.record.ended_of_clean hmetadata herror
      ((hfinish.mono fun _ => Event.Trailing.harmless).trans
        (.single (throwDecode_history _ _) ⟨rfl, rfl⟩)) ?_
    obtain ⟨events, hhistory⟩ := hcall.record.extends
    exact .of_event ⟨events ++ [_], by rw [LibFlac.callFinish, record_history, hhistory,
      List.append_assoc]⟩ (throwDecode_history _ _) rfl
  split
  · unfold completeEmptyRange
    have hfailed : (F.callFinish metadata.2.1 metadata.2.2).1 ≠ true → _ :=
      hcall.record.blamed_of_finish
    have hfinishNone : (F.callFinish metadata.2.1 metadata.2.2).2.pending = none := hmetadata
    generalize F.callFinish metadata.2.1 metadata.2.2 = finish at hfinish hfailed hfinishNone
    dsimp only
    split
    · exact hcall.record.ended_of_complete hmetadata herror
        (hfinish.mono fun _ h => ⟨h.harmless, h.1.2.1⟩) hfinishNone J
    · rename_i hgood
      simp only [Bool.and_eq_true, Bool.not_eq_true', exceptionCheck_eq_false.mpr hfinishNone,
        true_and] at hgood
      exact hcall.record.ended_of_clean hmetadata herror
        (hfinish.mono fun _ => Event.Trailing.harmless) (hfailed hgood)
  · exact seekAndProcess_ended hstates J fuel hwhat request _
      ⟨hcall.record, .inl hmetadata, fun _ => herror, (md5_of_mode hcall.mode).trans h.md5⟩
      hmetadata

end JFlac.Decode
