import JFlac.Decode.Counting

/-!
# What `onComplete` promises

Whatever libFLAC and the JVM do, an operation that calls `onComplete` has filled its range or has
come to the end of the stream. The one other way is an unbounded decode for which
`process_until_end_of_stream` returned true in front of the end.
-/

namespace JFlac.Decode

open Machine

variable {D : Type}

/-! ## The ends of an operation -/

/-- If an operation that began with the history `base` has completed, its events satisfy `P`. -/
def CompletesOnly (base : List Event) (P : List Event → Prop) (m : Machine) : Prop :=
  ∃ events, m.history = base ++ events ∧ ((∃ e ∈ events, e.isComplete = true) → P events)

/-- `finish` succeeded, with nothing pending. -/
def Finished (events : List Event) : Prop :=
  ∃ state, .returned .finish true state none ∈ events

section
variable {base : List Event} {asked : Asked} {m m' : Machine} {success : Prop}

/-- What does not complete needs no reason. -/
theorem Stands.completesOnly {P : List Event → Prop} (h : Stands base asked success m)
    (hadds : Adds Event.Uncounted m m') : CompletesOnly base P m' := by
  obtain ⟨events, hhistory, hincomplete, -⟩ := h
  obtain ⟨extra, hhistory', hextra⟩ := hadds
  refine ⟨events ++ extra, by rw [hhistory', hhistory, List.append_assoc], ?_⟩
  rintro ⟨e, he, hcomplete⟩
  have hincomplete : e.isComplete = false :=
    (List.mem_append.mp he).elim (hincomplete e) fun he => (hextra e he).2.1
  rw [hincomplete] at hcomplete
  cases hcomplete

theorem Counted.completesOnly {P : List Event → Prop} (h : Counted base asked m)
    (hadds : Adds Event.Uncounted m m') : CompletesOnly base P m' := by
  have hstands : Stands base asked False m := h.stands id
  exact hstands.completesOnly hadds

/-- An operation that was refused before libFLAC was called. -/
theorem CompletesOnly.of_internal {P : List Event → Prop} (h : AddsInternal m m') :
    CompletesOnly m.history P m' := by
  obtain ⟨extra, hhistory, hextra⟩ := h
  refine ⟨extra, hhistory, ?_⟩
  rintro ⟨e, he, hcomplete⟩
  rw [(Event.Uncounted.of_isInternal (hextra e he)).2.1] at hcomplete
  cases hcomplete

theorem CompletesOnly.mono {P Q : List Event → Prop} (h : CompletesOnly base P m)
    (himp : ∀ events, P events → Q events) : CompletesOnly base Q m := by
  obtain ⟨events, hhistory, hcompletes⟩ := h
  exact ⟨events, hhistory, fun hcomplete => himp events (hcompletes hcomplete)⟩

/-- `onComplete` is called where the operation may end. -/
theorem Stands.complete (h : Stands base asked success m) (hsuccess : success)
    {P : List Event → Prop}
    (hP : ∀ events, m.history = base ++ events → Reached asked m.context events →
      (∀ e ∈ events, e.isGivenUp = false) → ∀ outcome, P (events ++ [.java .onComplete outcome]))
    (J : Jvm) :
    CompletesOnly base P (m.callJava J .onComplete) := by
  obtain ⟨events, hhistory, -, hreached⟩ := h
  obtain ⟨outcome, hcalled⟩ := callJava_history J .onComplete m
  refine ⟨events ++ [.java .onComplete outcome], ?_, fun _ => ?_⟩
  · rw [hcalled, hhistory, List.append_assoc]
  · exact hP events hhistory (hreached hsuccess).1 (hreached hsuccess).2 outcome

end

/-! ## One-shot operations -/

/-- An exception that is pending when `finish` returns is pending after the reports. -/
theorem pending_of_reportFailure (what : String) (checkMd5 success finished : Bool)
    (state : Option String) {m : Machine}
    (h : (reportFailure what checkMd5 success finished state m).pending = none) :
    m.pending = none := by
  cases hm : m.pending with
  | none => rfl
  | some exception =>
    rw [reportFailure_pending hm, hm] at h
    cases h

section
variable (F : LibFlac D) (J : Jvm) {base : List Event} {asked : Asked}

/-- What a completed one-shot decode has behind it. -/
abbrev OneShotEnd (base : List Event) (asked : Asked) (m : Machine) : Prop :=
  CompletesOnly base (fun events => Finished events ∧ Reached asked m.context events) m

/-- The same, for a decode that was never at a return to give up at. -/
abbrev OneShotDone (base : List Event) (asked : Asked) (m : Machine) : Prop :=
  CompletesOnly base (fun events => (Finished events ∧ Reached asked m.context events) ∧
    ∀ e ∈ events, e.isGivenUp = false) m

/-- Nothing is counted or given up when `onComplete` is called. -/
theorem onComplete_quiet {events : List Event} (h : ∀ e ∈ events, e.isGivenUp = false)
    (outcome : JavaOutcome) :
    (∀ e ∈ [Event.java .onComplete outcome], e.chunk? = none ∧ e.isFailedLink = false) ∧
      ∀ e ∈ events ++ [.java .onComplete outcome], e.isGivenUp = false := by
  constructor
  · intro e he
    rw [List.mem_singleton.mp he]
    exact ⟨rfl, rfl⟩
  · intro e he
    refine (List.mem_append.mp he).elim (h e) fun he => ?_
    rw [List.mem_singleton.mp he]
    rfl

/-- `onComplete` after a `finish` that succeeded. -/
theorem Stands.finish {m m' : Machine} {success : Prop} (h : Stands base asked success m)
    (s : Stream D) (hadds : Adds Event.Uncounted (F.callFinish s m).2 m')
    (hcontext : m'.context = m.context) (hnone : m.pending = none) (hsuccess : success)
    (hfinish : (F.callFinish s m).1 = true) :
    OneShotDone base asked (m'.callJava J .onComplete) := by
  have hfinished : Stands base asked success (F.callFinish s m).2 :=
    h.adds (.single rfl ⟨rfl, rfl, rfl⟩) rfl
  refine (hfinished.adds hadds hcontext).complete hsuccess ?_ J
  intro events hhistory hreached hgoesOn outcome
  obtain ⟨hquiet, hgoesOn'⟩ := onComplete_quiet hgoesOn outcome
  refine ⟨⟨⟨F.getState s.decoder, ?_⟩, ?_⟩, hgoesOn'⟩
  · obtain ⟨before, hbefore, -⟩ := h
    obtain ⟨extra, hextra, -⟩ := hadds
    have hreturned : (F.callFinish s m).2.history =
        m.history ++ [.returned .finish true (F.getState s.decoder) none] := by
      have hfinish : F.finish s.decoder = true := hfinish
      simp only [LibFlac.callFinish, record_history, hfinish, hnone]
    rw [hextra, hreturned, hbefore, List.append_assoc, List.append_assoc] at hhistory
    rw [← List.append_cancel_left hhistory]
    simp
  · rw [callJava_context]
    exact hreached.append hquiet

theorem finishDecode_completesOnly (what : String) (checkMd5 success : Bool) (s : Stream D)
    {m : Machine} (h : Stands base asked (success = true) m) :
    OneShotDone base asked (finishDecode F J what checkMd5 success s m) := by
  unfold finishDecode
  dsimp only
  have hcontext := reportFailure_context what checkMd5 success (F.callFinish s m).1
    (copyResolvedDecoderState (F.getResolvedStateString s.decoder)) (F.callFinish s m).2
  have hadds := reportFailure_adds (P := Event.Uncounted) (fun _ => ⟨rfl, rfl, rfl⟩) what checkMd5
    success (F.callFinish s m).1
    (copyResolvedDecoderState (F.getResolvedStateString s.decoder)) (F.callFinish s m).2
  have hpending : _ → (F.callFinish s m).2.pending = none :=
    pending_of_reportFailure what checkMd5 success (F.callFinish s m).1
      (copyResolvedDecoderState (F.getResolvedStateString s.decoder))
  generalize reportFailure what checkMd5 success _ _ _ = m' at hcontext hadds hpending
  have hfinish : Adds Event.Uncounted m (F.callFinish s m).2 := .single rfl ⟨rfl, rfl, rfl⟩
  split
  · rename_i hgood
    simp only [Bool.and_eq_true, Bool.not_eq_true'] at hgood
    exact h.finish F J s hadds hcontext (hpending (exceptionCheck_eq_false.mp hgood.1.1))
      hgood.1.2 hgood.2
  · exact h.completesOnly (hfinish.trans hadds)

theorem processAndFinish_completesOnly (fuel : ℕ) (what : String) (checkMd5 : Bool) (s : Stream D)
    {m : Machine} (h : Counted base asked m) :
    OneShotDone base asked (processAndFinish F J fuel what checkMd5 s m).machine := by
  have hstands := processDecodeStream_stands F J fuel s h
  unfold processAndFinish
  generalize processDecodeStream F J fuel s m = r at hstands
  obtain ⟨_ | success, s', m'⟩ := r
  · exact hstands.completesOnly (.refl _)
  · exact finishDecode_completesOnly F J what checkMd5 success s' (hstands.mono (by simp))

/-- An operation that was given up. -/
theorem abandonDecode_completesOnly (failure : String) (s : Stream D) {m : Machine}
    (h : Counted base asked m) :
    OneShotDone base asked (abandonDecode F failure s m).machine := by
  unfold abandonDecode
  have hadds := reportIf_adds (P := Event.Uncounted) (fun _ => ⟨rfl, rfl, rfl⟩) true
    (failureMessage failure (F.getResolvedStateString s.decoder) m.context) m
  have hfinish : ∀ m', Adds Event.Uncounted m' (F.callFinish s m').2 := fun m' =>
    .single rfl ⟨rfl, rfl, rfl⟩
  exact h.completesOnly (hadds.trans (hfinish _))

theorem decodeInitialised_completesOnly (fuel : ℕ) (what : String) (request : DecodeRequest)
    (s : Stream D) {m : Machine} (h : Counted base asked m)
    (hfirst : asked.firstSample = request.firstSample.toNat) :
    OneShotDone base asked (decodeInitialised F J fuel what request s m).machine := by
  unfold decodeInitialised
  dsimp only
  split
  swap
  · exact processAndFinish_completesOnly F J fuel what _ s h
  have hmetadata := (h.call F J .processUntilEndOfMetadata
    (F.processUntilEndOfMetadata s.decoder) s.transportCalls).1 rfl
  generalize F.call J .processUntilEndOfMetadata _ _ m = metadata at hmetadata
  split
  · exact abandonDecode_completesOnly F _ _ hmetadata
  rename_i hcheck
  have hnone := (exit_cases hcheck).1
  have hadds : Adds Event.Uncounted metadata.2.2 (F.callFinish metadata.2.1 metadata.2.2).2 :=
    .single rfl ⟨rfl, rfl, rfl⟩
  split
  · have hthrown : Adds Event.Uncounted metadata.2.2
        ((F.callFinish metadata.2.1 metadata.2.2).2.throwDecode rangeAfterStreamMessage) :=
      hadds.trans (.single rfl ⟨rfl, rfl, rfl⟩)
    exact hmetadata.completesOnly hthrown
  split
  · rename_i hempty
    unfold completeEmptyRange
    dsimp only
    have hstands : Stands base asked True metadata.2.2 := by
      rcases Bool.or_eq_true_iff.mp hempty with hcomplete | hend
      · exact hmetadata.stands_full hcomplete
      · simp only [DecodeContext.rangeStartsAtStreamEnd, Bool.and_eq_true,
          decide_eq_true_eq] at hend
        exact hmetadata.stands_atEnd hend.1.1 hend.1.2 (hfirst.trans hend.2)
    split
    · rename_i hgood
      exact hstands.finish F J metadata.2.1 (.refl _) rfl hnone trivial
        (Bool.and_eq_true_iff.mp hgood).2
    · exact hstands.completesOnly hadds
  · unfold seekAndProcess
    dsimp only
    have hseek : Counted base asked
        (seekToFirstSample F J request.firstSample metadata.2.1 metadata.2.2).2.2 := by
      unfold seekToFirstSample
      split
      · exact hmetadata
      · exact (hmetadata.call F J .seekAbsolute _ _).1 rfl
    generalize seekToFirstSample F J request.firstSample _ _ = seek at hseek
    split
    · exact abandonDecode_completesOnly F _ _ hseek
    · exact processAndFinish_completesOnly F J fuel what _ _ hseek

/-- An operation that is about to begin has counted nothing. -/
theorem Counted.begin {base : List Event} {m m' : Machine} (hadds : AddsInternal m m')
    (hbase : m.history = base) (hpush : m'.context.pullMode = false)
    (hemitted : m'.context.emittedFrames = 0)
    (hcomplete : m'.context.rangeComplete = true → m'.context.asked.limit = some 0)
    (hbound : ∀ n ∈ m'.context.asked.limit, n < 18446744073709551616) :
    Counted base m'.context.asked m' := by
  obtain ⟨extra, hhistory, hextra⟩ := hadds
  refine ⟨hpush, rfl, ⟨extra, by rw [hhistory, hbase], ?_, ?_⟩, hbound, ?_, ?_⟩
  · rw [hemitted]
    exact framesHeard_quiet fun e he => (Event.Uncounted.of_isInternal (hextra e he)).1
  · exact fun e he => (Event.Uncounted.of_isInternal (hextra e he)).2
  · intro n _
    rw [hemitted]
    exact Nat.zero_le n
  · rw [hemitted]
    exact hcomplete

/-- The bound of a request that is not refused fits 64 bits. -/
theorem maxFrames_of_rejectRequest {request : DecodeRequest} (h : rejectRequest request = none)
    (hlimited : request.rangeLimited = true) : request.maxFrames.toNat < 18446744073709551616 := by
  have hvalidate : validateDecodeRequest request.firstSample true request.maxFrames = none := by
    unfold rejectRequest at h
    simp only [hlimited, Bool.or_true, if_true] at h
    cases hmessage : validateDecodeRequest request.firstSample true request.maxFrames with
    | none => rfl
    | some message =>
      rw [hmessage] at h
      cases h
  have hvalid := validateDecodeRequest_eq_none.mp hvalidate
  unfold longMax at hvalid
  omega

theorem DecodeRequest.context_asked (request : DecodeRequest) (source : Source) :
    (request.context source).asked = request.asked := by
  unfold DecodeContext.asked DecodeRequest.asked
  cases hlimited : request.rangeLimited <;>
    simp [DecodeRequest.context, DecodeContext.configureDecodeRange, DecodeContext.withSource,
      DecodeContext.prepared, oneShotContext, hlimited]

theorem OneShot.completesOnly {fuel : ℕ} {transport : Transport} {request : DecodeRequest}
    {outcome : Outcome} (h : OneShot F J fuel transport request outcome) :
    OneShotDone [] request.asked outcome.machine := by
  cases h with
  | rejected m hrejected => exact .of_internal hrejected.adds
  | initialised source s m hadds hnone hcontext hrequest =>
    have hasked : m.context.asked = request.asked := by rw [hcontext, request.context_asked]
    rw [← hasked]
    refine decodeInitialised_completesOnly F J fuel _ request s ?_
      (by rw [hasked]; rfl)
    refine .begin hadds rfl (by rw [hcontext]; rfl) (by rw [hcontext]; rfl) ?_ ?_
    · rw [hasked, hcontext]
      intro hcomplete
      have hempty := Bool.and_eq_true_iff.mp
        (show (request.rangeLimited && request.maxFrames == 0) = true from hcomplete)
      have hzero : request.maxFrames = 0 := by simpa using hempty.2
      unfold DecodeRequest.asked
      rw [if_pos hempty.1, hzero]
      rfl
    · rw [hasked]
      intro n hn
      unfold DecodeRequest.asked at hn
      by_cases hlimited : request.rangeLimited = true
      · rw [if_pos hlimited] at hn
        obtain rfl := Option.some.inj hn
        exact maxFrames_of_rejectRequest hrequest hlimited
      · rw [if_neg hlimited] at hn
        cases hn

/-! ## Session methods -/

/-- What a completed session method has behind it; a session does not finish its decoder. -/
abbrev SessionEnd (base : List Event) (asked : Asked) (m : Machine) : Prop :=
  CompletesOnly base (Reached asked m.context) m

/-- The same, for a method that was never at a return to give up at. -/
abbrev SessionDone (base : List Event) (asked : Asked) (m : Machine) : Prop :=
  CompletesOnly base (fun events => Reached asked m.context events ∧
    ∀ e ∈ events, e.isGivenUp = false) m

theorem Reached.dropConsumer {asked : Asked} {c : DecodeContext} {events : List Event}
    (h : Reached asked c events) : Reached asked c.dropConsumer events := by
  cases h with
  | full hlimit => exact .full hlimit
  | atEnd hinfo htotal hfirst => exact .atEnd hinfo htotal hfirst
  | endOfStream api hevent htotal => exact .endOfStream api hevent htotal
  | endOfChain hchained hevent hlink hverified => exact .endOfChain hchained hevent hlink hverified
  | cutShort hlimit hchained state hstate hevent =>
    exact .cutShort hlimit hchained state hstate hevent

theorem completeSession_completesOnly {success : Bool} {m : Machine}
    (h : Stands base asked (success = true) m) :
    SessionDone base asked (completeSession J success m) := by
  unfold completeSession
  dsimp only
  split
  · rename_i hgood
    have hsuccess := (Bool.and_eq_true_iff.mp hgood).2
    refine h.complete hsuccess (fun events _ hreached hgoesOn outcome => ?_) J
    obtain ⟨hquiet, hgoesOn'⟩ := onComplete_quiet hgoesOn outcome
    rw [withContext_context, callJava_context]
    exact ⟨(hreached.append hquiet).dropConsumer, hgoesOn'⟩
  · exact h.completesOnly (.of_history rfl)

theorem seekAndProcessSession_completesOnly (fuel : ℕ) (firstSample : ℤ) (recheckError : Bool)
    (s : Stream D) {m : Machine} (h : Counted base asked m) :
    SessionDone base asked
      (seekAndProcessSession F J fuel firstSample recheckError s m).session.machine := by
  unfold seekAndProcessSession
  dsimp only
  have hseek := (h.call F J .seekAbsolute (F.seekAbsolute s.decoder firstSample.toNat)
    s.transportCalls).1 rfl
  generalize F.call J .seekAbsolute _ _ m = seek at hseek
  split
  · exact hseek.completesOnly (.single rfl ⟨rfl, rfl, rfl⟩)
  have hstands := processDecodeStream_stands F J fuel seek.2.1 hseek
  generalize processDecodeStream F J fuel seek.2.1 seek.2.2 = r at hstands
  obtain ⟨_ | success, s', m'⟩ := r
  · exact hstands.completesOnly (.refl _)
  dsimp only
  split
  · exact hstands.completesOnly (.single rfl ⟨rfl, rfl, rfl⟩)
  · exact completeSession_completesOnly J (hstands.mono (by simp))

theorem decodeDecoderFrom_completesOnly (fuel : ℕ) (firstSample : ℤ) (consumer : Bool)
    (session : Session D) :
    SessionDone session.machine.history
      ⟨firstSample.toNat, none, session.machine.context.decodeChainedOgg⟩
      (decodeDecoderFrom F J fuel firstSample consumer session).session.machine := by
  have hrefused : ∀ {P : List Event → Prop} (exception : Throwable),
      CompletesOnly session.machine.history P (session.machine.enter.raise exception) :=
    fun exception => .of_internal (m := session.machine) (.single rfl rfl)
  unfold decodeDecoderFrom
  dsimp only
  split
  · exact hrefused _
  rename_i hpush
  split
  · exact hrefused _
  split
  · exact hrefused _
  have hprepared := prepareDecodeContext_prepares J (m := session.machine.enter) rfl
  generalize prepareDecodeContext J session.machine.enter = prepared at hprepared
  split
  · exact .of_internal (m := session.machine) hprepared.adds
  rename_i hsuccess
  have hcontext := hprepared.context (by simpa using hsuccess)
  refine seekAndProcessSession_completesOnly F J fuel firstSample true session.stream ?_
  have hasked : (prepared.2.context.sessionPrepared.startAt firstSample).asked =
      ⟨firstSample.toNat, none, session.machine.context.decodeChainedOgg⟩ := by
    rw [hcontext]
    rfl
  rw [← hasked]
  have hadds : AddsInternal session.machine (prepared.2.withContext
      (prepared.2.context.sessionPrepared.startAt firstSample)) := hprepared.adds
  refine .begin hadds rfl ?_ ?_ ?_ ?_
  · rw [withContext_context, hcontext]
    exact Bool.eq_false_iff.mpr hpush
  · rw [withContext_context, hcontext]
    rfl
  · rw [withContext_context, hcontext]
    intro hcomplete
    cases hcomplete
  · show ∀ n ∈ (prepared.2.context.sessionPrepared.startAt firstSample).asked.limit, _
    rw [hasked]
    simp

theorem decodeDecoderRange_completesOnly (fuel : ℕ) (firstSample maxFrames : ℤ) (consumer : Bool)
    (session : Session D) :
    SessionDone session.machine.history
      ⟨firstSample.toNat, some maxFrames.toNat, session.machine.context.decodeChainedOgg⟩
      (decodeDecoderRange F J fuel firstSample maxFrames consumer session).session.machine := by
  have hrefused : ∀ {P : List Event → Prop} (exception : Throwable),
      CompletesOnly session.machine.history P (session.machine.enter.raise exception) :=
    fun exception => .of_internal (m := session.machine) (.single rfl rfl)
  unfold decodeDecoderRange
  dsimp only
  split
  · exact hrefused _
  rename_i hpush
  cases hvalidate : validateDecodeRequest firstSample true maxFrames with
  | some message => exact hrefused _
  | none =>
  have hvalid := validateDecodeRequest_eq_none.mp hvalidate
  dsimp only
  split
  · exact hrefused _
  have hprepared := prepareDecodeContext_prepares J (m := session.machine.enter) rfl
  generalize prepareDecodeContext J session.machine.enter = prepared at hprepared
  split
  · exact .of_internal (m := session.machine) hprepared.adds
  rename_i hsuccess
  have hcontext := hprepared.context (by simpa using hsuccess)
  generalize hm : prepared.2.withContext
    (prepared.2.context.sessionPrepared.configureDecodeRange firstSample true maxFrames) = m
  have hmcontext : m.context = session.machine.context.prepared.sessionPrepared.configureDecodeRange
      firstSample true maxFrames := by
    rw [← hm, withContext_context, hcontext]
    rfl
  have hasked : m.context.asked =
      ⟨firstSample.toNat, some maxFrames.toNat, session.machine.context.decodeChainedOgg⟩ := by
    rw [hmcontext]
    rfl
  have hadds : AddsInternal session.machine m := by
    rw [← hm]
    exact hprepared.adds
  have hcounted : Counted session.machine.history m.context.asked m := by
    refine .begin hadds rfl ?_ ?_ ?_ ?_
    · rw [hmcontext]
      exact Bool.eq_false_iff.mpr hpush
    · rw [hmcontext]
      rfl
    · rw [hasked, hmcontext]
      intro hcomplete
      have hempty : maxFrames = 0 := by
        simpa using (show (true && maxFrames == 0) = true from hcomplete)
      rw [hempty]
      rfl
    · rw [hasked]
      intro n hn
      obtain rfl := Option.some.inj hn
      unfold longMax at hvalid
      omega
  rw [hasked] at hcounted
  split
  · exact hcounted.completesOnly (.single rfl ⟨rfl, rfl, rfl⟩)
  split
  · rename_i hempty
    refine completeSession_completesOnly J ?_
    rcases Bool.or_eq_true_iff.mp hempty with hcomplete | hend
    · exact hcounted.stands_full hcomplete
    · simp only [DecodeContext.rangeStartsAtStreamEnd, Bool.and_eq_true, decide_eq_true_eq] at hend
      exact hcounted.stands_atEnd hend.1.1 hend.1.2 hend.2
  · exact seekAndProcessSession_completesOnly F J fuel firstSample false session.stream hcounted

end

/-! ## All entry points -/

/-- Whatever libFLAC and the JVM do: an operation that calls `onComplete` has filled its range, or
has come to the end of the stream with all declared frames; a one-shot decode has finished its
decoder successfully besides. The exception is `cutShort`. -/
theorem onComplete_reached (F : LibFlac D) (J : Jvm) :
    (∀ fuel path consumer request,
      OneShotEnd [] request.asked (decodeFileInternal F J fuel path consumer request).machine) ∧
    (∀ fuel channel consumer request,
      OneShotEnd [] request.asked
        (decodeChannelInternal F J fuel channel consumer request).machine) ∧
    (∀ fuel inputStream consumer container checkMd5 decodeChainedOgg,
      OneShotEnd [] (DecodeRequest.whole container checkMd5 decodeChainedOgg).asked
        (decodeStreamInternal F J fuel inputStream consumer container checkMd5
          decodeChainedOgg).machine) ∧
    ∀ (session : Session D) (fuel : ℕ) (firstSample : ℤ) (consumer : Bool),
      SessionEnd session.machine.history
        ⟨firstSample.toNat, none, session.machine.context.decodeChainedOgg⟩
        (decodeDecoderFrom F J fuel firstSample consumer session).session.machine ∧
      ∀ maxFrames : ℤ, SessionEnd session.machine.history
        ⟨firstSample.toNat, some maxFrames.toNat, session.machine.context.decodeChainedOgg⟩
        (decodeDecoderRange F J fuel firstSample maxFrames consumer session).session.machine := by
  refine ⟨fun fuel path consumer request => ?_, fun fuel channel consumer request => ?_,
    fun fuel inputStream consumer container checkMd5 decodeChainedOgg => ?_,
    fun session fuel firstSample consumer => ⟨?_, fun maxFrames => ?_⟩⟩
  · exact (decodeFileInternal_oneShot F J fuel path consumer request).completesOnly.mono
      fun _ h => h.1
  · exact (decodeChannelInternal_oneShot F J fuel channel consumer request).completesOnly.mono
      fun _ h => h.1
  · exact (decodeStreamInternal_oneShot F J fuel inputStream consumer container checkMd5
      decodeChainedOgg).completesOnly.mono fun _ h => h.1
  · exact (decodeDecoderFrom_completesOnly F J fuel firstSample consumer session).mono
      fun _ h => h.1
  · exact (decodeDecoderRange_completesOnly F J fuel firstSample maxFrames consumer session).mono
      fun _ h => h.1

end JFlac.Decode
