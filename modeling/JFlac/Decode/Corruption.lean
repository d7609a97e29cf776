import JFlac.Decode.Ending
import JFlac.Decode.Opening
import JFlac.Decode.Scripted
import JFlac.Decode.Wrappers

/-!
# Corruption is fail-stop

The entry points, one after the other: the one-shot operations, the callback-driven methods of a
session, the opening of sessions, and the reads of a pull session. Nothing is assumed of the
callbacks libFLAC makes or of the booleans and states it returns.
-/

namespace JFlac.Decode

open Machine

variable {D : Type}

/-! ## One-shot operations -/

theorem Event.harmless_of_isInternal {e : Event} (h : e.isInternal = true) : e.Harmless :=
  have hordinary := Event.Ordinary.of_isInternal h
  ⟨hordinary.1, hordinary.2.2⟩

/-- An operation that is rejected ends there. -/
theorem Rejected.ended {m m' : Machine} (h : Rejected m m') : Ended m.history true m' := by
  have hblamed : Blamed m.history m' := by
    obtain ⟨extra, hhistory, -, hfailure⟩ := h.explained
    exact ⟨extra, hhistory, hfailure⟩
  obtain ⟨extra, hhistory, hinternal⟩ := h.adds
  exact ⟨extra, hhistory, .of_harmless fun e he => e.harmless_of_isInternal (hinternal e he),
    fun _ hno => (hblamed.not_unfailed hhistory hno).elim⟩

/-- The record of an operation that has reached libFLAC. -/
theorem OnRecord.of_addsInternal {m m' : Machine} (hadds : AddsInternal m m')
    (hnone : m'.pending = none) (herror : m'.context.sawError = false) :
    OnRecord m.history m' := by
  obtain ⟨extra, hhistory, hinternal⟩ := hadds
  have hordinary : ∀ e ∈ extra, e.Ordinary := fun e he => .of_isInternal (hinternal e he)
  refine ⟨extra, ⟨hhistory, ?_, .of_no_error fun e he => (hordinary e he).1,
    fun e he => (hordinary e he).2.1, fun h => absurd hnone h⟩, ?_, ?_⟩
  · rw [storedError_eq_none.mpr herror]
    exact firstError?_eq_none.mpr fun e he => (hordinary e he).1
  · intro e he exception hexception
    rw [(hordinary e he).2.2] at hexception
    cases hexception
  · intro hsaw
    rw [herror] at hsaw
    cases hsaw

theorem label_length (transport : Transport) :
    ("FLAC " ++ transport.label ++ "decoding").length ≤ 30 := by
  cases transport <;> decide

/-- A one-shot operation, from its arguments to its end. -/
theorem OneShot.ended {F : LibFlac D} (hstates : ShortStates F) {J : Jvm} {fuel : ℕ}
    {transport : Transport} {request : DecodeRequest} {outcome : Outcome}
    (h : OneShot F J fuel transport request outcome) :
    Ended [] outcome.finished outcome.machine := by
  cases h with
  | rejected m h => exact h.ended
  | initialised source s m hadds hnone hcontext hrequest =>
    have herror : m.context.sawError = false := by rw [hcontext]; rfl
    exact decodeInitialised_ended hstates J fuel (label_length transport) request s
      ⟨.of_addsInternal hadds hnone herror, .inl hnone, fun _ => herror, by rw [hcontext]; rfl⟩
      hnone

/-! ## Sessions -/

/-- A session decodes one stream, and has no link check that could fail. -/
def Session.Plain (session : Session D) : Prop :=
  session.machine.context.mode = (false, false)

theorem handle_mode (J : Jvm) (callback : Callback) (m : Machine) (calls : List TransportCall) :
    (handle J callback (m, calls)).2.1.context.mode = m.context.mode := by
  rcases handle_effect J callback m calls with ⟨status, rfl⟩ | ⟨events, heffect⟩
  · rfl
  · exact heffect.mode

/-- No libFLAC call changes the mode of a context. -/
theorem call_mode (F : LibFlac D) (J : Jvm) (api : Api) (activity : Activity D)
    (calls : List TransportCall) (m : Machine) :
    (F.call J api activity calls m).2.2.context.mode = m.context.mode :=
  Lib.Calls.run_invariant
    (P := fun s : Machine × List TransportCall => s.1.context.mode = m.context.mode)
    (fun callback s hs => (handle_mode J callback s.1 s.2).trans hs) activity rfl

theorem processToEnd_mode (F : LibFlac D) (J : Jvm) (s : Stream D) (m : Machine) :
    (processToEnd F J s m).2.2.context.mode = m.context.mode := by
  unfold processToEnd
  have hcall := call_mode F J .processUntilEndOfStream (F.processUntilEndOfStream s.decoder)
    s.transportCalls m
  generalize F.call J .processUntilEndOfStream _ _ m = stream at hcall
  dsimp only
  split
  · exact hcall
  · split
    · exact hcall
    · rw [validatePhysicalEofSampleCount_context]
      exact hcall

theorem processRange_mode (F : LibFlac D) (J : Jvm) (fuel : ℕ) (s : Stream D) (m : Machine) :
    (processRange F J fuel s m).2.2.context.mode = m.context.mode := by
  induction fuel generalizing s m with
  | zero => rfl
  | succ fuel ih =>
    unfold processRange
    split
    · rfl
    split
    · rfl
    have hcall := call_mode F J .processSingle (F.processSingle s.decoder) s.transportCalls m
    generalize F.call J .processSingle _ _ m = single at hcall
    dsimp only
    split
    · exact hcall
    split
    · exact hcall
    split
    · rw [validatePhysicalEofSampleCount_context]
      exact hcall
    · exact hcall
    · exact (ih _ _).trans hcall

/-- Outside a chain, processing leaves the mode as it is. -/
theorem processDecodeStream_mode (F : LibFlac D) (J : Jvm) (fuel : ℕ) (s : Stream D) {m : Machine}
    (hchained : m.context.decodeChainedOgg = false) :
    (processDecodeStream F J fuel s m).2.2.context.mode = m.context.mode := by
  unfold processDecodeStream
  split
  · exact processRange_mode F J fuel s m
  · rw [if_neg (by simp [hchained])]
    exact processToEnd_mode F J s m

/-- Where a session method ends: the record of the method is closed, and the session can be used
again. -/
structure SessionEnds (base : List Event) (outcome : SessionOutcome D) : Prop where
  ended : Ended base outcome.finished outcome.session.machine
  plain : outcome.session.Plain

/-- A failed seek or a failed loop is reported when nothing is pending. -/
theorem throwSessionFailure_ends {F : LibFlac D} (hstates : ShortStates F) {failure : String}
    (hfailure : failure.length ≤ 80) (s : Stream D) {base : List Event} {m : Machine}
    (h : OnRecord base m) (hnone : m.pending = none) (hblame : Blamed base m)
    (hmode : m.context.mode = (false, false)) :
    SessionEnds base ⟨true, ⟨s, throwSessionFailure F failure s m⟩⟩ := by
  refine ⟨?_, hmode⟩
  unfold throwSessionFailure
  generalize hmessage : failureMessage failure (F.getResolvedStateString s.decoder) m.context =
    message
  have hadds : Adds Event.Trailing m ((m.withContext m.context.dropConsumer).report message) :=
    .single (report_history _ _) (trailing_reported _)
  by_cases herror : m.context.sawError = true
  · refine h.ended_of_error hnone herror hadds (report_pending _ _) ?_
    rw [← hmessage]
    exact failureMessage_names hfailure (hstates s.decoder) herror
  · exact h.ended_of_clean hnone (by simpa using herror)
      (hadds.mono fun _ => Event.Trailing.harmless) (hblame.adds hadds)

/-- The last lines of a session method, when the loop has succeeded or an exception is pending. -/
theorem completeSession_ends (J : Jvm) (success : Bool) (s : Stream D) {base : List Event}
    {m : Machine} (h : OnRecord base m)
    (hsuccess : m.pending = none → success = true ∧ m.context.sawError = false)
    (hmode : m.context.mode = (false, false)) :
    SessionEnds base ⟨true, ⟨s, completeSession J success m⟩⟩ := by
  unfold completeSession
  dsimp only
  cases hpending : m.pending with
  | some exception =>
    rw [if_neg (by simp [exceptionCheck, hpending])]
    have hended : Ended base true m := h.ended_of_pending hpending (.refl m) hpending
    exact ⟨hended, hmode⟩
  | none =>
    obtain ⟨rfl, herror⟩ := hsuccess hpending
    rw [if_pos (by simp [exceptionCheck, hpending])]
    have hended : Ended base true (m.callJava J .onComplete) :=
      h.ended_of_complete hpending herror (.refl m) hpending J
    refine ⟨hended, ?_⟩
    exact (congrArg DecodeContext.mode (callJava_context J .onComplete m)).trans hmode

/-- Seeking and processing of a session, from a prepared context. The seek may leave an exception
pending, so the loop needs a round to notice it. -/
theorem seekAndProcessSession_ends {F : LibFlac D} (hstates : ShortStates F) (J : Jvm) {fuel : ℕ}
    (hfuel : 0 < fuel) (firstSample : ℤ) (recheckError : Bool) (s : Stream D)
    {base : List Event} {m : Machine}
    (h : OnRecord base m) (hnone : m.pending = none)
    (hmode : m.context.mode = (false, false)) :
    SessionEnds base (seekAndProcessSession F J fuel firstSample recheckError s m) := by
  unfold seekAndProcessSession
  have hseek := h.call (.inl hnone) F J .seekAbsolute (by simp)
    (F.seekAbsolute s.decoder firstSample.toNat) s.transportCalls
  generalize F.call J .seekAbsolute _ _ m = seek at hseek
  have hseekMode := hseek.mode.trans hmode
  dsimp only
  split
  · rename_i hcheck
    simp only [Bool.and_eq_true, Bool.not_eq_true', Bool.or_eq_true] at hcheck
    refine throwSessionFailure_ends hstates (by decide) _ hseek.record
      (exceptionCheck_eq_false.mp hcheck.1) (hseek.blamed_of_check ?_) hseekMode
    simp only [Bool.or_eq_true, Bool.not_eq_true']
    exact .inl hcheck.2
  rename_i hcheck
  have hchained : seek.2.2.context.decodeChainedOgg = false := congrArg (·.1) hseekMode
  have hready : Ready base seek.2.2 := by
    refine ⟨hseek.record, .inr hchained, fun hseekNone => ?_, congrArg (·.2) hseekMode⟩
    by_contra herror
    exact hcheck (by simp [exceptionCheck_eq_false.mpr hseekNone, herror])
  have hprocessed := processDecodeStream_processed F J fuel seek.2.1 hready (.inr hfuel)
  have hafter := (processDecodeStream_mode F J fuel seek.2.1 hchained).trans hseekMode
  generalize processDecodeStream F J fuel seek.2.1 seek.2.2 = r at hprocessed hafter
  obtain ⟨_ | success, s', m'⟩ := r
  · obtain ⟨hrunning, herror⟩ := hprocessed.running rfl
    exact ⟨hprocessed.record.ended_of_running hrunning herror, hafter⟩
  dsimp only
  split
  · rename_i hfailed
    simp only [Bool.and_eq_true, Bool.not_eq_true', Bool.or_eq_true] at hfailed
    have hfailedNone := exceptionCheck_eq_false.mp hfailed.1
    refine throwSessionFailure_ends hstates (by decide) _ hprocessed.record hfailedNone ?_ hafter
    rcases hfailed.2 with hsuccess | herror
    · exact hprocessed.blame (congrArg some hsuccess)
    · exact hprocessed.record.blamed (.inr herror.2)
  · rename_i hgood
    refine completeSession_ends J success s' hprocessed.record (fun hdone => ?_) hafter
    have hsuccess : success = true := by
      by_contra hsuccess
      exact hgood (by simp [exceptionCheck_eq_false.mpr hdone, hsuccess])
    exact ⟨hsuccess, hprocessed.success (congrArg some hsuccess) hdone⟩

theorem prepareDecodeContext_mode (J : Jvm) (m : Machine) :
    (prepareDecodeContext J m).2.context.mode = m.context.mode := by
  unfold prepareDecodeContext callJavaObject
  dsimp only
  split
  · rw [callJava_context]
  · have hprepared : ∀ c : DecodeContext, c.prepared.mode = c.mode := fun _ => rfl
    rw [withContext_context, hprepared, resolve_context, callJava_context]

/-- What `prepare_decode_context` leaves to a session method. -/
theorem prepareDecodeContext_session (J : Jvm) {session : Session D} (h : session.Plain) :
    ((prepareDecodeContext J session.machine.enter).1 = true ∧
      OnRecord session.machine.history (prepareDecodeContext J session.machine.enter).2 ∧
      (prepareDecodeContext J session.machine.enter).2.pending = none ∧
      (prepareDecodeContext J session.machine.enter).2.context.sawError = false ∧
      (prepareDecodeContext J session.machine.enter).2.context.mode = (false, false)) ∨
    ((prepareDecodeContext J session.machine.enter).1 = false ∧
      SessionEnds session.machine.history
        ⟨true, ⟨session.stream, (prepareDecodeContext J session.machine.enter).2⟩⟩) := by
  have hprepares := prepareDecodeContext_prepares J (m := session.machine.enter) rfl
  have hmode := (prepareDecodeContext_mode J session.machine.enter).trans h
  generalize prepareDecodeContext J session.machine.enter = prepared at hprepares hmode
  obtain ⟨success, m⟩ := prepared
  cases success with
  | false => exact .inr ⟨rfl, (hprepares.rejected rfl).ended, hmode⟩
  | true =>
    have herror : m.context.sawError = false := by rw [hprepares.context rfl]; rfl
    exact .inl ⟨rfl, .of_addsInternal hprepares.adds (hprepares.pending rfl) herror,
      hprepares.pending rfl, herror, hmode⟩

/-- The context update after `prepare_decode_context` does not touch the bookkeeping. -/
theorem OnRecord.withContext {base : List Event} {m : Machine} (h : OnRecord base m)
    {c : DecodeContext} (herrors : c.errorFields = m.context.errorFields) :
    OnRecord base (m.withContext c) := by
  obtain ⟨events, htracked, hsettled⟩ := h
  have hsaw : c.sawError = m.context.sawError := congrArg (·.1) herrors
  have htracked' := htracked.effect (Effect.withContext herrors)
  rw [List.append_nil] at htracked'
  exact ⟨events, htracked', hsettled.kept, fun h => hsettled.cause (hsaw ▸ h)⟩

/-- `decodeDecoderFrom`, on any session. -/
theorem decodeDecoderFrom_ends {F : LibFlac D} (hstates : ShortStates F) (J : Jvm) {fuel : ℕ}
    (hfuel : 0 < fuel) (firstSample : ℤ) (consumer : Bool) {session : Session D} (h : session.Plain) :
    SessionEnds session.machine.history
      (decodeDecoderFrom F J fuel firstSample consumer session) := by
  unfold decodeDecoderFrom
  dsimp only
  split
  · exact ⟨Rejected.ended (.single rfl rfl rfl (by simp) : Rejected session.machine _), h⟩
  split
  · exact ⟨Rejected.ended (.single rfl rfl rfl (by simp) : Rejected session.machine _), h⟩
  split
  · exact ⟨Rejected.ended (.single rfl rfl rfl (by simp) : Rejected session.machine _), h⟩
  obtain ⟨hsuccess, hrecord, hnone, -, hmode⟩ | ⟨hfailed, hends⟩ :=
    prepareDecodeContext_session J h
  · rw [if_neg (by simp [hsuccess])]
    generalize (prepareDecodeContext J session.machine.enter).2 = m at hrecord hnone hmode
    exact seekAndProcessSession_ends hstates J hfuel firstSample true session.stream
      (hrecord.withContext rfl) hnone hmode
  · rw [if_pos (by simp [hfailed])]
    exact hends

/-- `decodeDecoderRange`, on any session. -/
theorem decodeDecoderRange_ends {F : LibFlac D} (hstates : ShortStates F) (J : Jvm) {fuel : ℕ}
    (hfuel : 0 < fuel) (firstSample maxFrames : ℤ) (consumer : Bool) {session : Session D}
    (h : session.Plain) :
    SessionEnds session.machine.history
      (decodeDecoderRange F J fuel firstSample maxFrames consumer session) := by
  unfold decodeDecoderRange
  dsimp only
  split
  · exact ⟨Rejected.ended (.single rfl rfl rfl (by simp) : Rejected session.machine _), h⟩
  split
  · exact ⟨Rejected.ended (.single rfl rfl rfl (by simp) : Rejected session.machine _), h⟩
  split
  · exact ⟨Rejected.ended (.single rfl rfl rfl (by simp) : Rejected session.machine _), h⟩
  obtain ⟨hsuccess, hrecord, hnone, herror, hmode⟩ | ⟨hfailed, hends⟩ :=
    prepareDecodeContext_session J h
  swap
  · rw [if_pos (by simp [hfailed])]
    exact hends
  rw [if_neg (by simp [hsuccess])]
  generalize (prepareDecodeContext J session.machine.enter).2 = m at hrecord hnone herror hmode
  generalize hc : m.context.sessionPrepared.configureDecodeRange firstSample true maxFrames = c
  have herrors : c.errorFields = m.context.errorFields := by rw [← hc]; rfl
  have herror' : c.sawError = false := (congrArg (·.1) herrors).trans herror
  have hmode' : c.mode = (false, false) := (congrArg (·.2.2) herrors).trans hmode
  have hrecord' := hrecord.withContext herrors
  split
  · have hthrown : Ended session.machine.history true (((m.withContext c).withContext
        c.dropConsumer).throwDecode rangeAfterStreamMessage) :=
      hrecord'.ended_of_clean hnone herror' (.single rfl ⟨rfl, rfl⟩)
        (.of_event hrecord.extends rfl rfl)
    exact ⟨hthrown, hmode'⟩
  split
  · exact completeSession_ends J true session.stream hrecord' (fun _ => ⟨rfl, herror'⟩) hmode'
  · exact seekAndProcessSession_ends hstates J hfuel firstSample false session.stream hrecord' hnone
      hmode'

/-! ## Opening a session -/

/-- An opened session is plain and nothing was reported; an open that fails ends with an exception
that names the error, if there was one. -/
inductive OpenEnds (m : Machine) : Option (Session D) → Prop
  | opened (session : Session D) (hmachine : session.machine = m) (hplain : session.Plain)
      (hnone : m.pending = none) (herror : m.context.sawError = false) (hrecord : OnRecord [] m) :
      OpenEnds m (some session)
  | failed (hstopped : Stopped [] true m) (hraised : m.pending ≠ none) : OpenEnds m none

/-- A record with nothing pending and no error. -/
theorem OnRecord.stopped {base : List Event} {m : Machine} (h : OnRecord base m)
    (hnone : m.pending = none) (herror : m.context.sawError = false) (finished : Bool) :
    Stopped base finished m := by
  obtain ⟨events, hhistory, hevents⟩ := h.harmless hnone herror
  exact ⟨events, hhistory, .of_harmless fun e he => (hevents e he).1⟩

/-- An exception raised where nothing was pending and no error was reported ends an operation. -/
theorem OnRecord.throwDecode_stopped {base : List Event} {m : Machine} (h : OnRecord base m)
    (hnone : m.pending = none) (herror : m.context.sawError = false) (message : String) :
    Stopped base true (m.throwDecode message) :=
  (h.ended_of_clean hnone herror (.single (throwDecode_history _ _) ⟨rfl, rfl⟩)
    (.of_event h.extends (throwDecode_history _ _) rfl)).stopped

/-- A libFLAC call that failed is reported with the first error, if there was one. -/
theorem OnRecord.report_stopped {base : List Event} {m : Machine} {message : String}
    (h : OnRecord base m) (hnone : m.pending = none) (hblame : Blamed base m)
    (hnames : m.context.sawError = true → Names message m.context.firstErrorStatus) :
    Stopped base true (m.report message) := by
  have hadds : Adds Event.Trailing m (m.report message) :=
    .single (report_history _ _) (trailing_reported _)
  by_cases herror : m.context.sawError = true
  · exact (h.ended_of_error hnone herror hadds (report_pending _ _) (hnames herror)).stopped
  · exact (h.ended_of_clean hnone (by simpa using herror)
      (hadds.mono fun _ => Event.Trailing.harmless) (hblame.adds hadds)).stopped

theorem registerDecodeSession_cases (J : Jvm) (failure : String) (s : Stream D) {m : Machine}
    (h : OnRecord [] m) (hnone : m.pending = none) (herror : m.context.sawError = false) :
    registerDecodeSession J failure s m = (some ⟨s, m⟩, m) ∨
      ∃ m', registerDecodeSession J failure s m = (none, m') ∧ Stopped [] true m' ∧
        m'.pending ≠ none := by
  unfold registerDecodeSession
  split
  · exact .inr ⟨_, rfl, h.throwDecode_stopped hnone herror failure, by simp⟩
  · exact .inl rfl

theorem registerDecodeSession_ends (J : Jvm) (failure : String) (s : Stream D) {m : Machine}
    (h : OnRecord [] m) (hnone : m.pending = none) (herror : m.context.sawError = false)
    (hmode : m.context.mode = (false, false)) :
    OpenEnds (registerDecodeSession J failure s m).2 (registerDecodeSession J failure s m).1 := by
  obtain heq | ⟨m', heq, hstopped, hraised⟩ :=
    registerDecodeSession_cases J failure s h hnone herror
  · rw [heq]
    exact .opened ⟨s, m⟩ rfl hmode hnone herror h
  · rw [heq]
    exact .failed hstopped hraised

theorem Rejected.openEnds {m : Machine} (h : Rejected .start m) : OpenEnds (D := D) m none :=
  .failed h.ended.stopped h.raised

/-- Neither source can raise, and there is no consumer. -/
structure Sourceless (m : Machine) : Prop where
  none : m.pending = none
  consumer : m.context.consumer = false
  inputStream : m.context.source.inputStream = false
  seekableChannel : m.context.source.seekableChannel = false
  chained : m.context.decodeChainedOgg = false

/-- Without a consumer and without a Java source, no callback but a write callback runs Java
code. -/
theorem Sourceless.handle {m : Machine} (h : Sourceless m) (J : Jvm) (callback : Callback)
    (hcallback : ∀ frame, callback ≠ .write frame) (calls : List TransportCall) :
    Sourceless (handle J callback (m, calls)).2.1 := by
  cases callback with
  | write frame => exact absurd rfl (hcallback frame)
  | error status => exact ⟨h.none, h.consumer, h.inputStream, h.seekableChannel, h.chained⟩
  | metadata block =>
    cases block with
    | other => exact ⟨h.none, h.consumer, h.inputStream, h.seekableChannel, h.chained⟩
    | streamInfo info =>
      have heq : decodeMetadataCallback J (.streamInfo info)
          (m.record (.metadataCallback (.streamInfo info))) =
            (m.record (.metadataCallback (.streamInfo info))).withContext
              (m.context.captured info) := by
        unfold decodeMetadataCallback captureStreamInfo
        dsimp only
        rw [if_neg (by simp [h.chained]), if_pos]
        · rfl
        · simp [DecodeContext.captured, h.consumer]
      simp only [JFlac.Decode.handle, heq]
      exact ⟨h.none, h.consumer, h.inputStream, h.seekableChannel, h.chained⟩
  | transport callback =>
    have hsame : (handleTransport J callback m calls).2.1 = m := by
      cases callback <;>
        simp [handleTransport, decodeReadCallback, decodeChannelSeekCallback,
          decodeChannelTellCallback, decodeChannelLengthCallback, channelOffset,
          decodeChannelEofCallback, exceptionCheck, h.none, h.inputStream, h.seekableChannel]
    simp only [JFlac.Decode.handle, hsame]
    exact h

/-- `openDecoderFile`, given that libFLAC decodes nothing while it reads metadata. -/
theorem openDecoderFile_ends {F : LibFlac D} (hstates : ShortStates F) (hmetadata : F.MetadataOnly)
    (J : Jvm) (path : Bool) (container : ℤ) :
    OpenEnds (openDecoderFile F J path container).2 (openDecoderFile F J path container).1 := by
  unfold openDecoderFile
  dsimp only
  split
  · exact Rejected.openEnds (.throwIllegalArgument _)
  split
  · exact Rejected.openEnds (.throwIllegalArgument _)
  obtain ⟨hpath, hadds, hnone, -⟩ | ⟨hpath, hrejected⟩ :=
    jstringToUtf8_cases J (m := .start) rfl "Failed to encode file path to UTF-8."
  swap
  · rw [if_pos (by simp [hpath])]
    exact hrejected.openEnds
  rw [if_neg (by simp [hpath])]
  generalize (jstringToUtf8 J .start).2 = m at hadds hnone
  split
  · exact Rejected.openEnds (.after (.throwDecode _) hadds)
  split
  · exact Rejected.openEnds (.after (.throwDecode _) hadds)
  have hadds' : AddsInternal .start (m.withContext (openContext false)) :=
    hadds.trans (.of_history rfl)
  split
  · exact Rejected.openEnds (.after (.throwDecode _) hadds')
  rename_i decoder _
  have hcall := (OnRecord.of_addsInternal hadds' hnone rfl).call (.inl hnone) F J
    .processUntilEndOfMetadata (by simp) (F.processUntilEndOfMetadata decoder) []
  have hsourceless : Sourceless (F.call J .processUntilEndOfMetadata
      (F.processUntilEndOfMetadata decoder) [] (m.withContext (openContext false))).2.2 := by
    have hrun : Sourceless ((F.processUntilEndOfMetadata decoder).run (handle J)
        (m.withContext (openContext false), [])).2.1 :=
      Lib.Calls.run_invariant_of_requests
        (P := fun s : Machine × List TransportCall => Sourceless s.1)
        (fun callback s hcallback hs => hs.handle J callback hcallback s.2) _ (hmetadata decoder)
        ⟨hnone, rfl, rfl, rfl, rfl⟩
    exact ⟨hrun.none, hrun.consumer, hrun.inputStream, hrun.seekableChannel, hrun.chained⟩
  generalize F.call J .processUntilEndOfMetadata _ _ _ = metadata at hcall hsourceless
  split
  · rename_i hcheck
    refine .failed (hcall.record.report_stopped hsourceless.none (hcall.blamed_of_check ?_)
      (failureMessage_names (by decide) (hstates _))) (by simp)
    rw [hcheck, Bool.true_or]
  · rename_i hcheck
    simp only [Bool.or_eq_true, Bool.not_eq_true', not_or, Bool.not_eq_true] at hcheck
    exact registerDecodeSession_ends J _ _ hcall.record hsourceless.none hcheck.2 hcall.mode

/-- The metadata pass of a session over a Java source. -/
theorem readSessionMetadata_ends {F : LibFlac D} (hstates : ShortStates F) (J : Jvm)
    (failure : String) (hfailure : failure.length ≤ 80) (decoder : D) (calls : List TransportCall)
    {m : Machine} (hrecord : OnRecord [] m) (hnone : m.pending = none)
    (hmode : m.context.mode = (false, false)) :
    (∃ s m', readSessionMetadata F J failure decoder calls m = (some s, m') ∧ OnRecord [] m' ∧
      m'.pending = none ∧ m'.context.sawError = false ∧ m'.context.mode = (false, false)) ∨
    ∃ m', readSessionMetadata F J failure decoder calls m = (none, m') ∧ Stopped [] true m' ∧
      m'.pending ≠ none := by
  unfold readSessionMetadata
  have hcall := hrecord.call (.inl hnone) F J .processUntilEndOfMetadata (by simp)
    (F.processUntilEndOfMetadata decoder) calls
  generalize F.call J .processUntilEndOfMetadata _ _ m = metadata at hcall
  dsimp only
  split
  · rename_i hpending
    obtain ⟨exception, hexception⟩ := exceptionCheck_eq_true.mp hpending
    exact .inr ⟨_, rfl, (hcall.record.ended_of_pending hexception (.refl _) hexception).stopped,
      by simp [hexception]⟩
  rename_i hpending
  have hmetadataNone := pending_eq_none hpending
  split
  · rename_i hcheck
    refine .inr ⟨_, rfl, hcall.record.report_stopped hmetadataNone (hcall.blamed_of_check ?_)
      (failureMessage_names hfailure (hstates _)), by simp⟩
    rw [hcheck, Bool.true_or]
  · rename_i hcheck
    simp only [Bool.or_eq_true, Bool.not_eq_true', not_or, Bool.not_eq_true] at hcheck
    exact .inl ⟨_, _, rfl, hcall.record, hmetadataNone, hcheck.2, hcall.mode.trans hmode⟩

/-- `openDecoderChannel`. -/
theorem openDecoderChannel_ends {F : LibFlac D} (hstates : ShortStates F) (J : Jvm)
    (channel : Bool) (container : ℤ) :
    OpenEnds (openDecoderChannel F J channel container).2
      (openDecoderChannel F J channel container).1 := by
  unfold openDecoderChannel
  dsimp only
  split
  · exact Rejected.openEnds (.throwIllegalArgument _)
  split
  · exact Rejected.openEnds (.throwIllegalArgument _)
  split
  · exact Rejected.openEnds (.throwDecode _)
  split
  · exact Rejected.openEnds (.throwDecode _)
  rename_i decoder _
  have hadds : AddsInternal .start (Machine.start.withContext (openContext false)) :=
    .of_history rfl
  obtain ⟨position, hchannel, -⟩ := prepareDecodeSeekableChannel_prepares J
    (m := Machine.start.withContext (openContext false)) rfl []
  generalize prepareDecodeSeekableChannel J _ [] = r at hchannel
  obtain ⟨success, m, calls⟩ := r
  cases success with
  | false => exact ((hchannel.rejected rfl).after hadds).openEnds
  | true =>
    have hadds := hadds.trans hchannel.adds
    have hnone := hchannel.pending rfl
    have hcontext := hchannel.context rfl
    dsimp only at hadds hnone hcontext ⊢
    split
    · exact Rejected.openEnds (.after (.throwDecode _) hadds)
    rename_i decoder _
    have herror : m.context.sawError = false := by rw [hcontext]; rfl
    obtain ⟨s, m', heq, hrecord, hnone', herror', hmode⟩ | ⟨m', heq, hstopped, hraised⟩ :=
      readSessionMetadata_ends hstates J
        "FLAC channel decoder session failed while reading metadata" (by decide)
        decoder calls (.of_addsInternal hadds hnone herror) hnone (by rw [hcontext]; rfl)
    · rw [heq]
      exact registerDecodeSession_ends J _ s hrecord hnone' herror' hmode
    · rw [heq]
      exact .failed hstopped hraised

/-- An internal event that raises nothing keeps the record. -/
theorem OnRecord.record_internal {base : List Event} {m : Machine} (h : OnRecord base m)
    {event : Event} (hevent : event.isInternal = true) : OnRecord base (m.record event) := by
  obtain ⟨events, htracked, hsettled⟩ := h
  have hordinary := Event.Ordinary.of_isInternal hevent
  refine ⟨events ++ [event],
    htracked.effect (.record hordinary (Event.isPcm_of_isInternal hevent)), ?_, ?_⟩
  · intro e he exception hexception
    rcases List.mem_append.mp he with he | he
    · exact hsettled.kept e he exception hexception
    · rw [List.mem_singleton.mp he, hordinary.2.2] at hexception
      cases hexception
  · intro herror exception hexception
    obtain ⟨e, he, heq⟩ := hsettled.cause herror exception hexception
    exact ⟨e, List.mem_append_left _ he, heq⟩

theorem openPullDecoderInternal_ends {F : LibFlac D} (hstates : ShortStates F) (J : Jvm)
    (transport : Transport) (container : ℤ) {m : Machine} (hadds : AddsInternal .start m)
    (hnone : m.pending = none) :
    OpenEnds (openPullDecoderInternal F J transport container m).2
      (openPullDecoderInternal F J transport container m).1 := by
  unfold openPullDecoderInternal
  split
  · exact Rejected.openEnds (.after (.throwDecode _) hadds)
  split
  · exact Rejected.openEnds (.after (.throwDecode _) hadds)
  rename_i decoder _
  have hadds' : AddsInternal .start (m.withContext (openContext true)) :=
    hadds.trans (.of_history rfl)
  obtain ⟨source, htransport⟩ := preparePullTransport_prepares J transport
    (m := m.withContext (openContext true)) hnone
  generalize preparePullTransport J transport _ = r at htransport
  obtain ⟨success, m₁, calls⟩ := r
  cases success with
  | false => exact ((htransport.rejected rfl).after hadds').openEnds
  | true =>
    have hadds := hadds'.trans htransport.adds
    have hnone := htransport.pending rfl
    have hcontext := htransport.context rfl
    dsimp only at hadds hnone hcontext ⊢
    split
    · exact Rejected.openEnds (.after (.throwDecode _) hadds)
    rename_i decoder _
    have herror : m₁.context.sawError = false := by rw [hcontext]; rfl
    obtain ⟨s, m₂, heq, hrecord, hnone₂, herror₂, hmode⟩ | ⟨m₂, heq, hstopped, hraised⟩ :=
      readSessionMetadata_ends hstates J "FLAC pull decoder failed while reading metadata"
        (by decide)
        decoder calls (.of_addsInternal hadds hnone herror) hnone (by rw [hcontext]; rfl)
    swap
    · rw [heq]
      exact .failed hstopped hraised
    rw [heq]
    dsimp only
    split
    · exact .failed (hrecord.throwDecode_stopped hnone₂ herror₂ _) (by simp)
    obtain hregister | ⟨m₃, hregister, hstopped, hraised⟩ := registerDecodeSession_cases J
      "Failed to register FLAC pull decoder session." s hrecord hnone₂ herror₂
    swap
    · rw [hregister]
      exact .failed hstopped hraised
    rw [hregister]
    unfold callJavaObject
    dsimp only
    rcases callJava_cases J (.newPullDecoderOpenResult m₂.context.streamInfo) hnone₂ with
      heq | ⟨exception, heq⟩
    · rw [heq, if_pos (by simp [exceptionCheck, hnone₂])]
      exact .opened _ rfl hmode hnone₂ herror₂ (hrecord.record_internal rfl)
    · rw [heq, if_neg (by simp [exceptionCheck])]
      refine .failed ?_ (by simp)
      exact (hrecord.ended_of_clean hnone₂ herror₂ (.single rfl ⟨rfl, rfl⟩)
        (.of_event hrecord.extends rfl rfl)).stopped

/-- The three ways to open a pull session. -/
theorem openPullDecoder_ends {F : LibFlac D} (hstates : ShortStates F) (J : Jvm)
    (transport : Transport) (source : Bool) (container : ℤ) :
    OpenEnds (openPullDecoder F J transport source container).2
      (openPullDecoder F J transport source container).1 := by
  unfold openPullDecoder
  dsimp only
  split
  · exact Rejected.openEnds (.throwIllegalArgument _)
  split
  · exact Rejected.openEnds (.throwIllegalArgument _)
  split
  · obtain ⟨hpath, hadds, hnone, -⟩ | ⟨hpath, hrejected⟩ :=
      jstringToUtf8_cases J (m := .start) rfl "Failed to encode file path to UTF-8."
    · rw [if_neg (by simp [hpath])]
      exact openPullDecoderInternal_ends hstates J .file container hadds hnone
    · rw [if_pos (by simp [hpath])]
      exact hrejected.openEnds
  · exact openPullDecoderInternal_ends hstates J _ container (.refl _) rfl

/-! ## Pull reads -/

/-- Where the loop of a pull read ends. -/
inductive LoopEnds (base : List Event) : Option Bool × Stream D × Machine → Prop
  | running (s : Stream D) (m : Machine) (hstopped : Stopped base false m)
      (hnone : m.pending = none) : LoopEnds base (none, s, m)
  | failed (s : Stream D) (m : Machine) (hstopped : Stopped base true m) :
      LoopEnds base (some false, s, m)
  | left (s : Stream D) (m : Machine) (hstopped : Stopped base true m) :
      LoopEnds base (some true, s, m)

theorem pullLoop_ends {F : LibFlac D} (hstates : ShortStates F) (J : Jvm) (fuel : ℕ)
    (s : Stream D) {base : List Event} {m : Machine} (h : OnRecord base m)
    (hnone : m.pending = none) (herror : m.context.sawError = false) :
    LoopEnds base (pullLoop F J fuel s m) := by
  induction fuel generalizing s m with
  | zero => exact .running s m (h.stopped hnone herror false) hnone
  | succ fuel ih =>
    unfold pullLoop
    split
    swap
    · exact .left s m (h.stopped hnone herror true)
    have hcall := h.call (.inl hnone) F J .processSingle (by simp) (F.processSingle s.decoder)
      s.transportCalls
    generalize F.call J .processSingle _ _ m = single at hcall
    dsimp only
    split
    · rename_i hpending
      obtain ⟨exception, hexception⟩ := exceptionCheck_eq_true.mp hpending
      exact .failed _ _
        (hcall.record.ended_of_pending hexception (.refl _) hexception).stopped
    rename_i hpending
    have hsingle := pending_eq_none hpending
    split
    · rename_i hcheck
      exact .failed _ _ (hcall.record.report_stopped hsingle
        (hcall.blamed_of_check (by rw [hcheck, Bool.true_or]))
        (failureMessage_names (by decide) (hstates _)))
    rename_i hcheck
    simp only [Bool.or_eq_true, Bool.not_eq_true', not_or, Bool.not_eq_true] at hcheck
    split
    · rcases validatePhysicalEofSampleCount_cases hsingle with ⟨-, heq⟩ | ⟨-, heq⟩
      · rw [heq]
        exact .left _ _ (hcall.record.stopped hsingle hcheck.2 true)
      · rw [heq]
        exact .failed _ _ (hcall.record.throwDecode_stopped hsingle hcheck.2 _)
    · rename_i hstate
      refine .failed _ _ (hcall.record.report_stopped hsingle (hcall.blame none ?_) ?_)
      · simp [Event.isFailure, hstate]
      · rw [hcheck.2]
        simp
    · exact ih _ hcall.record hsingle hcheck.2

theorem pullLoop_mode (F : LibFlac D) (J : Jvm) (fuel : ℕ) (s : Stream D) (m : Machine) :
    (pullLoop F J fuel s m).2.2.context.mode = m.context.mode := by
  induction fuel generalizing s m with
  | zero => rfl
  | succ fuel ih =>
    unfold pullLoop
    split
    swap
    · rfl
    have hcall := call_mode F J .processSingle (F.processSingle s.decoder) s.transportCalls m
    generalize F.call J .processSingle _ _ m = single at hcall
    dsimp only
    split
    · exact hcall
    split
    · exact hcall
    split
    · have hcount := validatePhysicalEofSampleCount_context single.2.2
      split
      · rw [hcount]
        exact hcall
      · have hend : ∀ c : DecodeContext, c.endPull.mode = c.mode := fun _ => rfl
        rw [withContext_context, hend, hcount]
        exact hcall
    · exact hcall
    · exact (ih _ _).trans hcall

/-- Where a pull read ends. -/
structure ReadEnds (base : List Event) (read : PullRead D) : Prop where
  stopped : Stopped base read.value.isSome read.session.machine
  running : read.value = none → read.session.machine.pending = none
  plain : read.session.Plain

theorem readPullDecoderInterleaved_ends {F : LibFlac D} (hstates : ShortStates F) (J : Jvm)
    (fuel : ℕ) (samples : List Sample) (maxFrames : ℤ) {session : Session D}
    (h : session.Plain) :
    ReadEnds session.machine.history
      (readPullDecoderInterleaved F J fuel samples maxFrames session) := by
  have hrejected : ∀ exception, Ended session.machine.history true
      (session.machine.enter.raise exception) := fun exception =>
    Rejected.ended (.single rfl rfl rfl (by simp [Machine.raise]) : Rejected session.machine _)
  unfold readPullDecoderInterleaved
  dsimp only
  split
  · exact ⟨(hrejected _).stopped, by simp, h⟩
  split
  · exact ⟨⟨[], by simp [Machine.enter], .of_harmless (by simp)⟩, by simp, h⟩
  split
  · exact ⟨(hrejected _).stopped, by simp, h⟩
  split
  · exact ⟨(hrejected _).stopped, by simp, h⟩
  have hrecord : OnRecord session.machine.history (session.machine.enter.withContext
      (session.machine.enter.context.startPull samples maxFrames.toNat)) :=
    .of_addsInternal (m := session.machine) (.of_history rfl) rfl rfl
  have hmode : (session.machine.enter.withContext
      (session.machine.enter.context.startPull samples maxFrames.toNat)).context.mode =
        (false, false) := h
  have hnone : (session.machine.enter.withContext
      (session.machine.enter.context.startPull samples maxFrames.toNat)).pending = none := rfl
  have herror : (session.machine.enter.withContext
      (session.machine.enter.context.startPull samples maxFrames.toNat)).context.sawError =
        false := rfl
  generalize session.machine.enter.withContext _ = m at hrecord hmode hnone herror
  obtain ⟨c, herrors, heq⟩ | ⟨exception, heq⟩ := drainDecodePullPending_cases hnone
  swap
  · rw [heq]
    have hraised : Stopped session.machine.history true (m.raise exception) :=
      (hrecord.ended_of_clean hnone herror (.single rfl ⟨rfl, rfl⟩)
        (.of_event hrecord.extends rfl rfl)).stopped
    exact ⟨hraised, fun hvalue => absurd hvalue (Option.some_ne_none _), hmode⟩
  rw [heq]
  have hloop := pullLoop_ends hstates J fuel session.stream (hrecord.withContext herrors) hnone
    ((congrArg (·.1) herrors).trans herror)
  have hloopMode := (pullLoop_mode F J fuel session.stream (m.withContext c)).trans
    ((congrArg (·.2.2) herrors).trans hmode)
  dsimp only
  rw [if_neg (by simp)]
  generalize pullLoop F J fuel session.stream (m.withContext c) = r at hloop hloopMode
  cases hloop with
  | running s m hstopped hnone => exact ⟨hstopped, fun _ => hnone, hloopMode⟩
  | failed s m hstopped =>
    exact
      ⟨hstopped, fun hvalue => absurd hvalue (Option.some_ne_none _), hloopMode⟩
  | left s m hstopped =>
    exact
      ⟨hstopped, fun hvalue => absurd hvalue (Option.some_ne_none _), hloopMode⟩

/-! ## Kotlin pull sessions -/

/-- A read record: it is fail-stop for its caller. -/
def ReadRecord.Stops (record : ReadRecord) : Prop :=
  FailStop record.events record.result.finished record.result.exception?

/-- A read that never reaches libFLAC. -/
theorem ReadRecord.stops_of_no_events (result : Result (ℤ × List Sample)) :
    ReadRecord.Stops ⟨[], result⟩ := .of_harmless (by simp)

/-- What one read of a Kotlin pull session does: an error report ends the session. -/
structure PullStep (p : PullSession D) (result : Result (ℤ × List Sample)) (p' : PullSession D) :
    Prop where
  stops : ∃ events, p'.native.machine.history = p.native.machine.history ++ events ∧
    FailStop events result.finished result.exception? ∧
    (firstError? events ≠ none → p'.active = false)
  plain : p'.native.Plain

theorem PullSession.readInterleaved_step {F : LibFlac D} (hstates : ShortStates F) (J : Jvm)
    (fuel : ℕ) (samples : List Sample) (maxFrames : ℤ) {p : PullSession D}
    (h : p.native.Plain) :
    PullStep p (p.readInterleaved F J fuel samples maxFrames).1
      (p.readInterleaved F J fuel samples maxFrames).2 := by
  have hno : ∀ result, PullStep p result p := fun result =>
    ⟨⟨[], by simp, ReadRecord.stops_of_no_events result, fun h => absurd rfl h⟩, h⟩
  unfold PullSession.readInterleaved
  dsimp only
  split
  · exact hno _
  split
  · exact hno _
  split
  · exact hno _
  split
  · exact hno _
  have hread := readPullDecoderInterleaved_ends hstates J fuel samples maxFrames h
  generalize readPullDecoderInterleaved F J fuel samples maxFrames p.native = read at hread
  obtain ⟨events, hhistory, hstops⟩ := hread.stopped
  cases hvalue : read.value with
  | none =>
    rw [hvalue, hread.running hvalue] at hstops
    exact ⟨⟨events, hhistory, hstops,
      fun herror => absurd (hstops.ends herror) (by simp)⟩, hread.plain⟩
  | some frames =>
    rw [hvalue] at hstops
    cases hpending : read.session.machine.pending with
    | some exception =>
      rw [hpending] at hstops
      exact ⟨⟨events, hhistory, hstops, fun _ => rfl⟩, hread.plain⟩
    | none =>
      rw [hpending] at hstops
      exact ⟨⟨events, hhistory, hstops, fun herror => absurd rfl (hstops.raises herror)⟩,
        hread.plain⟩

/-- Every run of reads: each read is fail-stop, and after an error report the session returns no
more PCM. -/
theorem PullSession.reads_stop {F : LibFlac D} (hstates : ShortStates F) (J : Jvm) (fuel : ℕ)
    (requests : List (List Sample × ℤ)) {p : PullSession D} (h : p.native.Plain) :
    (∀ record ∈ p.reads F J fuel requests, record.Stops) ∧
      (p.reads F J fuel requests).Pairwise fun earlier later =>
        firstError? earlier.events ≠ none →
          later = ⟨[], .threw (.illegalStateException inactiveMessage)⟩ := by
  induction requests generalizing p with
  | nil => simp [PullSession.reads]
  | cons request requests ih =>
    obtain ⟨samples, maxFrames⟩ := request
    obtain ⟨⟨events, hhistory, hstops, hinactive⟩, hplain⟩ :=
      PullSession.readInterleaved_step hstates J fuel samples maxFrames h
    unfold PullSession.reads
    dsimp only
    rw [hhistory, List.drop_left]
    generalize p.readInterleaved F J fuel samples maxFrames = read at hstops hinactive hplain
    split
    · obtain ⟨hall, hpairwise⟩ := ih hplain
      refine ⟨List.forall_mem_cons.mpr ⟨hstops, hall⟩, List.pairwise_cons.mpr ⟨?_, hpairwise⟩⟩
      intro later hlater herror
      exact PullSession.reads_inactive F J fuel requests (hinactive herror) later hlater
    · exact ⟨List.forall_mem_cons.mpr ⟨hstops, by simp⟩, by simp⟩

/-! ## All entry points -/

/-- The one-shot entry points, with their outcomes. -/
inductive OneShotCall (F : LibFlac D) (J : Jvm) : Outcome → Prop
  | file (fuel : ℕ) (path consumer : Bool) (container : ℤ) (checkMd5 decodeChainedOgg : Bool) :
      OneShotCall F J (decodeFile F J fuel path consumer container checkMd5 decodeChainedOgg)
  | stream (fuel : ℕ) (stream consumer : Bool) (container : ℤ)
      (checkMd5 decodeChainedOgg : Bool) :
      OneShotCall F J (decodeStream F J fuel stream consumer container checkMd5 decodeChainedOgg)
  | channel (fuel : ℕ) (channel consumer : Bool) (container : ℤ)
      (checkMd5 decodeChainedOgg : Bool) :
      OneShotCall F J
        (decodeChannel F J fuel channel consumer container checkMd5 decodeChainedOgg)
  | fileFrom (fuel : ℕ) (path consumer : Bool) (container firstSample : ℤ) :
      OneShotCall F J (decodeFileFrom F J fuel path consumer container firstSample)
  | channelFrom (fuel : ℕ) (channel consumer : Bool) (container firstSample : ℤ) :
      OneShotCall F J (decodeChannelFrom F J fuel channel consumer container firstSample)
  | fileRange (fuel : ℕ) (path consumer : Bool) (container firstSample maxFrames : ℤ) :
      OneShotCall F J
        (decodeFileRange F J fuel path consumer container firstSample maxFrames)
  | channelRange (fuel : ℕ) (channel consumer : Bool) (container firstSample maxFrames : ℤ) :
      OneShotCall F J
        (decodeChannelRange F J fuel channel consumer container firstSample maxFrames)

/-- The ways to open a session, with their results. -/
inductive OpenCall (F : LibFlac D) (J : Jvm) : Option (Session D) × Machine → Prop
  | file (path : Bool) (container : ℤ) : OpenCall F J (openDecoderFile F J path container)
  | channel (channel : Bool) (container : ℤ) :
      OpenCall F J (openDecoderChannel F J channel container)
  | pull (transport : Transport) (source : Bool) (container : ℤ) :
      OpenCall F J (openPullDecoder F J transport source container)

/-- The callback-driven methods of a session, with their outcomes; their loops may make at least one
round. -/
inductive SessionCall (F : LibFlac D) (J : Jvm) (session : Session D) : SessionOutcome D → Prop
  | fromSample (fuel : ℕ) (firstSample : ℤ) (consumer : Bool) :
      SessionCall F J session (decodeDecoderFrom F J (fuel + 1) firstSample consumer session)
  | range (fuel : ℕ) (firstSample maxFrames : ℤ) (consumer : Bool) :
      SessionCall F J session
        (decodeDecoderRange F J (fuel + 1) firstSample maxFrames consumer session)

/-- The sessions that some run of native calls leads to. -/
inductive Session.Reachable (F : LibFlac D) (J : Jvm) : Session D → Prop
  | opened (session : Session D) (m : Machine) (h : OpenCall F J (some session, m)) :
      Reachable F J session
  | called (session : Session D) (outcome : SessionOutcome D) (hsession : Reachable F J session)
      (h : SessionCall F J session outcome) : Reachable F J outcome.session
  | read (session : Session D) (fuel : ℕ) (samples : List Sample) (maxFrames : ℤ)
      (hsession : Reachable F J session) :
      Reachable F J (readPullDecoderInterleaved F J fuel samples maxFrames session).session

theorem OneShotCall.ended {F : LibFlac D} (hstates : ShortStates F) {J : Jvm} {outcome : Outcome}
    (h : OneShotCall F J outcome) : Ended [] outcome.finished outcome.machine := by
  cases h with
  | file => exact (decodeFileInternal_oneShot F J _ _ _ _).ended hstates
  | stream => exact (decodeStreamInternal_oneShot F J _ _ _ _ _ _).ended hstates
  | channel => exact (decodeChannelInternal_oneShot F J _ _ _ _).ended hstates
  | fileFrom => exact (decodeFileInternal_oneShot F J _ _ _ _).ended hstates
  | channelFrom => exact (decodeChannelInternal_oneShot F J _ _ _ _).ended hstates
  | fileRange => exact (decodeFileInternal_oneShot F J _ _ _ _).ended hstates
  | channelRange => exact (decodeChannelInternal_oneShot F J _ _ _ _).ended hstates

theorem OpenCall.ends {F : LibFlac D} (hstates : ShortStates F) (hmetadata : F.MetadataOnly)
    {J : Jvm} {opened : Option (Session D) × Machine} (h : OpenCall F J opened) :
    OpenEnds opened.2 opened.1 := by
  cases h with
  | file => exact openDecoderFile_ends hstates hmetadata J _ _
  | channel => exact openDecoderChannel_ends hstates J _ _
  | pull => exact openPullDecoder_ends hstates J _ _ _

theorem SessionCall.ends {F : LibFlac D} (hstates : ShortStates F) {J : Jvm}
    {session : Session D} (hplain : session.Plain) {outcome : SessionOutcome D}
    (h : SessionCall F J session outcome) : SessionEnds session.machine.history outcome := by
  cases h with
  | fromSample fuel => exact decodeDecoderFrom_ends hstates J fuel.succ_pos _ _ hplain
  | range fuel => exact decodeDecoderRange_ends hstates J fuel.succ_pos _ _ _ hplain

/-- Every session stays plain, whatever is done with it. -/
theorem Session.Reachable.plain {F : LibFlac D} (hstates : ShortStates F)
    (hmetadata : F.MetadataOnly) {J : Jvm} {session : Session D}
    (h : Session.Reachable F J session) : session.Plain := by
  induction h with
  | opened session m h =>
    cases h.ends hstates hmetadata with
    | opened _ _ hplain => exact hplain
  | called session outcome _ h ih => exact (h.ends hstates ih).plain
  | read session fuel samples maxFrames _ ih =>
    exact (readPullDecoderInterleaved_ends hstates J fuel samples maxFrames ih).plain

/-- Corruption is fail-stop and never masked, at every entry point and in every run. -/
theorem corruption_failStop {F : LibFlac D} (hstates : ShortStates F)
    (hmetadata : F.MetadataOnly) (J : Jvm) :
    (∀ outcome, OneShotCall F J outcome → Ended [] outcome.finished outcome.machine) ∧
    (∀ opened, OpenCall F J opened → Stopped [] true opened.2 ∧
      (opened.1 = none ↔ opened.2.pending ≠ none)) ∧
    (∀ session, Session.Reachable F J session → ∀ outcome, SessionCall F J session outcome →
      Ended session.machine.history outcome.finished outcome.session.machine) ∧
    ∀ session, Session.Reachable F J session → ∀ fuel requests,
      (∀ record ∈ (PullSession.ofNative session).reads F J fuel requests, record.Stops) ∧
      ((PullSession.ofNative session).reads F J fuel requests).Pairwise fun earlier later =>
        firstError? earlier.events ≠ none →
          later = ⟨[], .threw (.illegalStateException inactiveMessage)⟩ := by
  refine ⟨fun _ h => h.ended hstates, fun opened h => ?_, fun session hsession outcome h =>
    (h.ends hstates (hsession.plain hstates hmetadata)).ended, fun session hsession fuel requests =>
    PullSession.reads_stop hstates J fuel requests (hsession.plain hstates hmetadata)⟩
  obtain ⟨session?, m⟩ := opened
  cases h.ends hstates hmetadata with
  | opened session hmachine hplain hnone herror hrecord =>
    exact ⟨hrecord.stopped hnone herror true, nofun, fun h => absurd hnone h⟩
  | failed hstopped hraised => exact ⟨hstopped, by simp [hraised]⟩

/-- A whole-file decode in which a block is followed by a lost sync and a block of silence. -/
def lostSync : LibFlac Scripted :=
  scripted [⟨[.metadata (.streamInfo StreamInfo.zero),
    .write (silentFrame 1 1 one_lt_uint32 one_lt_uint32), .error .lostSync,
    .write (silentFrame 1 1 one_lt_uint32 one_lt_uint32)], true, .endOfStream⟩]

theorem corruption_failStop_lostSync :
    Ended [] true (decodeFile lostSync quietJvm 0 true true 0 false false).machine ∧
      (decodeFile lostSync quietJvm 0 true true 0 false false).machine.pending =
        some (.flacDecodeException ("FLAC decoding failed: FLAC__STREAM_DECODER_END_OF_STREAM " ++
          "(decoder error callback: LOST_SYNC).")) := by
  have hstates : ShortStates lostSync := by
    intro d text htext
    cases htext
    decide
  exact ⟨(corruption_failStop hstates (scripted_metadataOnly _) quietJvm).1 _
    (.file 0 true true 0 false false), by decide⟩

end JFlac.Decode
