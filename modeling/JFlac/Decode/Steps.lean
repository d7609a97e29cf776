import JFlac.Decode.Session

/-!
# What one callback can do

One inversion lemma for each callback, said once: the write callback in push mode (`WriteStep`),
the metadata callback (`MetadataStep`), and the transport callbacks (`TransportStep`). Invariants
over whole libFLAC calls, loops and operations are case analyses over these.
-/

namespace JFlac.Decode

open Machine

variable {D : Type}

/-! ## Kinds of events -/

/-- PCM handed to the consumer. -/
def Event.isPcm : Event → Bool
  | .java (.onPcmInterleaved _ _) _ => true
  | _ => false

/-- A call of `onComplete`. -/
def Event.isComplete : Event → Bool
  | .java .onComplete _ => true
  | _ => false

/-- A call of `onStreamInfo`. -/
def Event.isStreamInfo : Event → Bool
  | .java (.onStreamInfo _) _ => true
  | _ => false

/-- The error libFLAC reported, if the event is an error callback. -/
def Event.error? : Event → Option ErrorStatus
  | .errorCallback status => some status
  | _ => none

/-- An event that explains why an operation fails: an error report, an exception raised by Java or
by a check, or a libFLAC call that did not succeed. -/
def Event.isFailure : Event → Bool
  | .errorCallback _ | .raised _ | .transportThrew _ | .java _ (.threw _) => true
  | .returned .processSingle success state _ => !success || state == .aborted
  | .returned .processUntilEndOfLink success state _ =>
    !success || (state != .endOfStream && state != .endOfLink)
  | .returned _ success _ _ => !success
  | _ => false

/-- An event that is neither a call on the consumer nor a report of libFLAC. -/
def Event.isInternal : Event → Bool
  | .java (.onPcmInterleaved _ _) _ | .java .onComplete _ | .java (.onStreamInfo _) _ => false
  | .writeCallback _ | .metadataCallback _ | .errorCallback _ => false
  | .returned _ _ _ _ => false
  | _ => true

/-! ## The machine -/

theorem exceptionCheck_eq_false {m : Machine} : m.exceptionCheck = false ↔ m.pending = none := by
  cases h : m.pending <;> simp [exceptionCheck, h]

theorem exceptionCheck_eq_true {m : Machine} :
    m.exceptionCheck = true ↔ ∃ exception, m.pending = some exception := by
  cases h : m.pending <;> simp [exceptionCheck, h]

@[simp] theorem record_context (m : Machine) (event : Event) :
    (m.record event).context = m.context := rfl

@[simp] theorem record_pending (m : Machine) (event : Event) :
    (m.record event).pending = m.pending := rfl

@[simp] theorem record_history (m : Machine) (event : Event) :
    (m.record event).history = m.history ++ [event] := rfl

@[simp] theorem withContext_context (m : Machine) (c : DecodeContext) :
    (m.withContext c).context = c := rfl

@[simp] theorem withContext_pending (m : Machine) (c : DecodeContext) :
    (m.withContext c).pending = m.pending := rfl

@[simp] theorem withContext_history (m : Machine) (c : DecodeContext) :
    (m.withContext c).history = m.history := rfl

@[simp] theorem throwDecode_context (m : Machine) (message : String) :
    (m.throwDecode message).context = m.context := rfl

@[simp] theorem throwDecode_pending (m : Machine) (message : String) :
    (m.throwDecode message).pending = some (.flacDecodeException message) := rfl

@[simp] theorem throwDecode_history (m : Machine) (message : String) :
    (m.throwDecode message).history = m.history ++ [.raised (.flacDecodeException message)] := rfl

@[simp] theorem report_context (m : Machine) (message : String) :
    (m.report message).context = m.context := rfl

@[simp] theorem report_pending (m : Machine) (message : String) :
    (m.report message).pending = some (.flacDecodeException message) := rfl

@[simp] theorem report_history (m : Machine) (message : String) :
    (m.report message).history = m.history ++ [.reported (.flacDecodeException message)] := rfl

@[simp] theorem throwIllegalArgument_context (m : Machine) (message : String) :
    (m.throwIllegalArgument message).context = m.context := rfl

@[simp] theorem throwIllegalArgument_pending (m : Machine) (message : String) :
    (m.throwIllegalArgument message).pending = some (.illegalArgumentException message) := rfl

@[simp] theorem throwIllegalArgument_history (m : Machine) (message : String) :
    (m.throwIllegalArgument message).history =
      m.history ++ [.raised (.illegalArgumentException message)] := rfl

@[simp] theorem throwIllegalState_context (m : Machine) (message : String) :
    (m.throwIllegalState message).context = m.context := rfl

@[simp] theorem throwIllegalState_pending (m : Machine) (message : String) :
    (m.throwIllegalState message).pending = some (.illegalStateException message) := rfl

@[simp] theorem throwIllegalState_history (m : Machine) (message : String) :
    (m.throwIllegalState message).history =
      m.history ++ [.raised (.illegalStateException message)] := rfl

/-- A Java call with nothing pending returns, or raises what the JVM makes it raise. -/
theorem callJava_throws (J : Jvm) (call : JavaCall) {m : Machine} (hnone : m.pending = none) :
    m.callJava J call = m.record (.java call .returned) ∨
    ∃ exception, J.throws m.history call = some exception ∧ m.callJava J call =
      { m with
        pending := some exception, history := m.history ++ [.java call (.threw exception)] } := by
  unfold callJava
  rw [hnone]
  cases hthrows : J.throws m.history call with
  | none => exact .inl rfl
  | some exception => exact .inr ⟨exception, rfl, rfl⟩

theorem callJava_cases (J : Jvm) (call : JavaCall) {m : Machine} (hnone : m.pending = none) :
    m.callJava J call = m.record (.java call .returned) ∨
    ∃ exception, m.callJava J call =
      { m with
        pending := some exception, history := m.history ++ [.java call (.threw exception)] } := by
  rcases callJava_throws J call hnone with heq | ⟨exception, -, heq⟩
  · exact .inl heq
  · exact .inr ⟨exception, heq⟩

/-- A Java call with an exception pending is not executed. -/
theorem callJava_skipped (J : Jvm) (call : JavaCall) {m : Machine} {exception : Throwable}
    (h : m.pending = some exception) : m.callJava J call = m.record (.java call .skipped) := by
  unfold callJava
  rw [h]

/-- However it ends, a Java call is recorded, and leaves the context alone. -/
theorem callJava_history (J : Jvm) (call : JavaCall) (m : Machine) :
    ∃ outcome, (m.callJava J call).history = m.history ++ [.java call outcome] := by
  cases hpending : m.pending with
  | some exception => exact ⟨.skipped, by rw [callJava_skipped J call hpending, record_history]⟩
  | none =>
    rcases callJava_cases J call hpending with heq | ⟨exception, heq⟩
    · exact ⟨.returned, by rw [heq, record_history]⟩
    · exact ⟨.threw exception, by rw [heq]⟩

@[simp] theorem callJava_context (J : Jvm) (call : JavaCall) (m : Machine) :
    (m.callJava J call).context = m.context := by
  unfold callJava
  split
  · rfl
  · split <;> rfl

theorem resolve_context (J : Jvm) (calls : List JavaCall) (m : Machine) :
    (m.resolve J calls).2.context = m.context := by
  unfold resolve
  induction calls generalizing m with
  | nil => rfl
  | cons call calls ih => exact (ih (m.callJava J call)).trans (callJava_context J call m)

/-! ## The write callback -/

/-- The events of a block whose first `frames` frames were forwarded. -/
def forwardEvents (frame : Frame) (frames : ℕ) : List Event :=
  [.java (.newIntArray (frame.channels * frames)) .returned,
    .java (.onPcmInterleaved (interleave frame frames) frames) .returned]

/-- What the write callback can do in push mode. -/
inductive WriteStep (frame : Frame) (m : Machine) : WriteStatus → Machine → Prop
  /-- An exception is pending, or an error was reported. -/
  | refused (h : m.pending.isSome = true ∨ m.context.sawError = true) : WriteStep frame m .abort m
  /-- The requested range is already complete. -/
  | outside (hnone : m.pending = none) (herror : m.context.sawError = false)
      (hframes : m.context.outputFrames frame.blocksize = none) :
      WriteStep frame m .cont (m.withContext m.context.completeRange)
  /-- No array, no memory, or a block that fits no array: an exception, and no PCM. -/
  | failed (exception : Throwable) (events : List Event) (hnone : m.pending = none)
      (herror : m.context.sawError = false) (hinternal : ∀ e ∈ events, e.isInternal = true)
      (hfailure : ∃ e ∈ events, e.isFailure = true) :
      WriteStep frame m .abort
        { m with pending := some exception, history := m.history ++ events }
  /-- The consumer received PCM and raised. -/
  | threw (exception : Throwable) (frames : ℕ) (hnone : m.pending = none)
      (herror : m.context.sawError = false)
      (hframes : m.context.outputFrames frame.blocksize = some frames) :
      WriteStep frame m .abort
        { m with
          pending := some exception
          history := m.history ++
            [.java (.newIntArray (frame.channels * frames)) .returned,
              .java (.onPcmInterleaved (interleave frame frames) frames) (.threw exception)] }
  /-- The consumer received PCM. -/
  | forwarded (frames : ℕ) (hnone : m.pending = none) (herror : m.context.sawError = false)
      (hframes : m.context.outputFrames frame.blocksize = some frames)
      (hchannels : 0 < frame.channels) (hpos : 0 < frames) :
      WriteStep frame m .cont
        { context := m.context.emit frames
          pending := none
          history := m.history ++ forwardEvents frame frames }

theorem forwardPcm_step (J : Jvm) (frame : Frame) (frames : ℕ) {m : Machine}
    (hnone : m.pending = none) (herror : m.context.sawError = false)
    (hframes : m.context.outputFrames frame.blocksize = some frames) :
    WriteStep frame m (forwardPcm J frame frames m).1 (forwardPcm J frame frames m).2 := by
  unfold forwardPcm
  dsimp only
  split
  · exact .failed _ [_] hnone herror (by simp [Event.isInternal]) (by simp [Event.isFailure])
  rename_i hguard
  rcases callJava_cases J (.newIntArray (frame.channels * frames)) hnone with harray | ⟨e, harray⟩
  · rw [harray, if_neg (by simp [exceptionCheck, hnone])]
    split
    · have hstep : WriteStep frame m .abort _ :=
        .failed (.flacDecodeException "Failed to allocate PCM buffer.")
          [.java (.newIntArray (frame.channels * frames)) .returned,
            .raised (.flacDecodeException "Failed to allocate PCM buffer.")]
          hnone herror (by simp [Event.isInternal]) (by simp [Event.isFailure])
      simpa [Machine.record, throwDecode, Machine.raise] using hstep
    · rcases callJava_cases J (.onPcmInterleaved (interleave frame frames) frames)
        (m := m.record (.java (.newIntArray (frame.channels * frames)) .returned)) hnone with
        hpcm | ⟨e, hpcm⟩
      · rw [hpcm, if_neg (by simp [exceptionCheck, hnone])]
        have hstep : WriteStep frame m .cont _ :=
          .forwarded frames hnone herror hframes (by omega) (by omega)
        simpa [Machine.record, Machine.withContext, forwardEvents, hnone] using hstep
      · rw [hpcm, if_pos (by simp [exceptionCheck])]
        have hstep : WriteStep frame m .abort _ := .threw e frames hnone herror hframes
        simpa [Machine.record] using hstep
  · rw [harray, if_pos (by simp [exceptionCheck])]
    exact .failed e [_] hnone herror (by simp [Event.isInternal]) (by simp [Event.isFailure])

/-- The write callback in push mode does one of the above. -/
theorem decodeWriteCallback_step (J : Jvm) (frame : Frame) {m : Machine}
    (hpush : m.context.pullMode = false) :
    WriteStep frame m (decodeWriteCallback J frame m).1 (decodeWriteCallback J frame m).2 := by
  unfold decodeWriteCallback
  by_cases hcheck : m.exceptionCheck = true
  · rw [if_pos hcheck]
    exact .refused (.inl hcheck)
  rw [if_neg hcheck]
  have hnone := pending_eq_none hcheck
  by_cases herror : m.context.sawError = true
  · rw [if_pos herror]
    exact .refused (.inr herror)
  rw [if_neg herror, if_neg (by simp [hpush])]
  rw [Bool.not_eq_true] at herror
  cases hframes : m.context.outputFrames frame.blocksize with
  | none => exact .outside hnone herror hframes
  | some frames => exact forwardPcm_step J frame frames hnone herror hframes

/-! ## The metadata callback -/

/-- The Java calls that hand STREAMINFO to the consumer. -/
inductive StreamInfoCalls (info : StreamInfo) : Option Throwable → List Event →
    Option Throwable → Prop
  /-- No consumer, or one that already has it. -/
  | suppressed (pending : Option Throwable) : StreamInfoCalls info pending [] pending
  | skipped (exception : Throwable) :
      StreamInfoCalls info (some exception) [.java (.newStreamInfo info) .skipped] (some exception)
  | notCreated (exception : Throwable) :
      StreamInfoCalls info none [.java (.newStreamInfo info) (.threw exception)] (some exception)
  | threw (exception : Throwable) :
      StreamInfoCalls info none
        [.java (.newStreamInfo info) .returned, .java (.onStreamInfo info) (.threw exception)]
        (some exception)
  | delivered :
      StreamInfoCalls info none
        [.java (.newStreamInfo info) .returned, .java (.onStreamInfo info) .returned] none

/-- An exception pending before STREAMINFO is handed over is still pending afterwards. -/
theorem StreamInfoCalls.pending {info : StreamInfo} {before after : Option Throwable}
    {events : List Event} (h : StreamInfoCalls info before events after) {exception : Throwable}
    (hbefore : before = some exception) : after = some exception := by
  cases h with
  | suppressed => exact hbefore
  | skipped => exact hbefore
  | notCreated => cases hbefore
  | threw => cases hbefore
  | delivered => cases hbefore

theorem captureStreamInfo_step (J : Jvm) (info publicInfo : StreamInfo) (m : Machine) :
    ∃ events after, StreamInfoCalls publicInfo m.pending events after ∧
      captureStreamInfo J info publicInfo m =
        { context := m.context.captured info, pending := after
          history := m.history ++ events } := by
  unfold captureStreamInfo callJavaObject
  dsimp only
  split
  · exact ⟨[], m.pending, .suppressed _, by simp [Machine.withContext]⟩
  cases hpending : m.pending with
  | some exception =>
    rw [callJava_skipped J _
      (show (m.withContext (m.context.captured info)).pending = some exception from hpending)]
    refine ⟨_, _, .skipped exception, ?_⟩
    simp [exceptionCheck, Machine.record, Machine.withContext, hpending]
  | none =>
    rcases callJava_cases J (.newStreamInfo publicInfo)
      (m := m.withContext (m.context.captured info)) hpending with hnew | ⟨exception, hnew⟩
    · rw [hnew, if_pos (by simp [exceptionCheck, hpending])]
      rcases callJava_cases J (.onStreamInfo publicInfo)
        (m := (m.withContext (m.context.captured info)).record
          (.java (.newStreamInfo publicInfo) .returned))
        hpending with hcall | ⟨exception, hcall⟩
      · exact ⟨_, _, .delivered,
          by rw [hcall]; simp [Machine.record, Machine.withContext, hpending]⟩
      · exact ⟨_, _, .threw exception, by rw [hcall]; simp [Machine.record, Machine.withContext]⟩
    · rw [hnew, if_neg (by simp [exceptionCheck])]
      exact ⟨_, _, .notCreated exception, by simp [Machine.withContext]⟩

/-- What the metadata callback can do. -/
inductive MetadataStep (m : Machine) : Metadata → Machine → Prop
  | ignored : MetadataStep m .other m
  /-- A later link of a chain, of the common shape. -/
  | laterLink (info : StreamInfo) (hchained : m.context.decodeChainedOgg = true)
      (hcount : 0 < m.context.chainedLinkCount) (hshape : info.sameShape m.context.streamInfo) :
      MetadataStep m (.streamInfo info)
        (m.withContext (m.context.beginLink info (add32 m.context.chainedLinkCount 1)))
  /-- A later link of a chain, of another shape. -/
  | mismatch (info : StreamInfo) (hchained : m.context.decodeChainedOgg = true)
      (hcount : 0 < m.context.chainedLinkCount)
      (hshape : ¬ info.sameShape m.context.streamInfo) :
      MetadataStep m (.streamInfo info)
        ((m.withContext (m.context.beginLink info m.context.chainedLinkCount)).throwDecode
          chainShapeMessage)
  /-- The first link of a chain. -/
  | firstLink (info : StreamInfo) (events : List Event) (after : Option Throwable)
      (hchained : m.context.decodeChainedOgg = true) (hcount : m.context.chainedLinkCount = 0)
      (hcalls : StreamInfoCalls info.chainShape m.pending events after) :
      MetadataStep m (.streamInfo info)
        { context := (m.context.beginLink info 1).captured info
          pending := after
          history := m.history ++ events }
  /-- Any STREAMINFO outside a chain. -/
  | stored (info : StreamInfo) (events : List Event) (after : Option Throwable)
      (hchained : m.context.decodeChainedOgg = false)
      (hcalls : StreamInfoCalls info m.pending events after) :
      MetadataStep m (.streamInfo info)
        { context := m.context.captured info, pending := after
          history := m.history ++ events }

/-- The metadata callback does one of the above. -/
theorem decodeMetadataCallback_step (J : Jvm) (block : Metadata) (m : Machine) :
    MetadataStep m block (decodeMetadataCallback J block m) := by
  cases block with
  | other => exact .ignored
  | streamInfo info =>
    unfold decodeMetadataCallback
    dsimp only
    by_cases hchained : m.context.decodeChainedOgg = true
    · rw [if_pos hchained]
      by_cases hcount : 0 < m.context.chainedLinkCount
      · rw [if_pos hcount]
        split
        · exact .laterLink info hchained hcount ‹_›
        · exact .mismatch info hchained hcount ‹_›
      · rw [if_neg hcount]
        obtain ⟨events, after, hcalls, heq⟩ :=
          captureStreamInfo_step J info info.chainShape
            (m.withContext (m.context.beginLink info 1))
        have hstep := MetadataStep.firstLink (m := m) info events after hchained (by omega) hcalls
        rw [heq]
        exact hstep
    · rw [if_neg hchained]
      obtain ⟨events, after, hcalls, heq⟩ := captureStreamInfo_step J info info m
      rw [heq]
      exact .stored info events after (by simpa using hchained) hcalls

end JFlac.Decode
