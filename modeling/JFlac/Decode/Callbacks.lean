import JFlac.Decode.Transport

/-!
# Write, metadata and error callbacks

The callbacks through which libFLAC delivers blocks, STREAMINFO and stream errors, and `handle`,
which answers every callback of a libFLAC call. 64-bit frame counters are natural numbers; the count
of chained links and the pull counters, which have 32 bits, keep their machine arithmetic.
-/

namespace JFlac.Decode

open Machine

variable {D : Type}

/-- The double loop that copies the first `frames` frames of a block, channel by channel. -/
def interleave (frame : Frame) (frames : ℕ) : List Sample :=
  (List.range frames).flatMap fun frameIndex =>
    (List.range frame.channels).map fun channelIndex => frame.buffer channelIndex frameIndex

/-! ## Pull mode -/

/-- `clear_decode_pull_pending`. -/
def DecodeContext.clearDecodePullPending (c : DecodeContext) : DecodeContext :=
  { c with pullPendingSamples := none, pullPendingSampleCount := 0, pullPendingSampleOffset := 0 }

/-- `SetIntArrayRegion` inside the bounds of the array. -/
def setIntArrayRegion (array : List Sample) (start : ℕ) (samples : List Sample) : List Sample :=
  array.take start ++ samples ++ array.drop (start + samples.length)

/-- The context after the given samples, which are `copyFrames` frames, were copied to Java. -/
def DecodeContext.copyOut (c : DecodeContext) (outputOffsetSamples copyFrames : ℕ)
    (samples : List Sample) : DecodeContext :=
  { c with
    pullOutput := c.pullOutput.map fun array => setIntArrayRegion array outputOffsetSamples samples
    pullPendingSampleOffset :=
      add32 c.pullPendingSampleOffset (mul32 copyFrames c.pullChannels)
    pullWrittenFrames := add32 c.pullWrittenFrames copyFrames
    emittedFrames := c.emittedFrames + copyFrames }

/-- Frees the pending block once all of it was copied. -/
def DecodeContext.releaseDrained (c : DecodeContext) : DecodeContext :=
  if c.pullPendingSampleCount ≤ c.pullPendingSampleOffset then c.clearDecodePullPending else c

/-- `drain_decode_pull_pending`. -/
def drainDecodePullPending (m : Machine) : Bool × Machine :=
  let c := m.context
  match c.pullPendingSamples with
  | none => (true, m.withContext c.clearDecodePullPending)
  | some pending =>
    if c.pullPendingSampleCount ≤ c.pullPendingSampleOffset then
      (true, m.withContext c.clearDecodePullPending)
    else if c.pullChannels = 0 then (false, m.throwDecode "Pull decoder has no channel count.")
    else
      let remainingRequest := sub32 c.pullRequestedFrames c.pullWrittenFrames
      if remainingRequest = 0 then (true, m)
      else
        let availableSamples := sub32 c.pullPendingSampleCount c.pullPendingSampleOffset
        let availableFrames := availableSamples / c.pullChannels
        let copyFrames := min availableFrames remainingRequest
        let copySamples := mul32 copyFrames c.pullChannels
        let outputOffsetSamples := mul32 c.pullWrittenFrames c.pullChannels
        if c.pullOutputCapacitySamples < outputOffsetSamples + copySamples then
          (false,
            m.throwIllegalArgument "Interleaved sample buffer must fit maxFrames * channels.")
        else if m.exceptionCheck then (false, m)
        else
          let samples := (pending.drop c.pullPendingSampleOffset).take copySamples
          (true, m.withContext (c.copyOut outputOffsetSamples copyFrames samples).releaseDrained)

/-- The context with a whole block pending. -/
def DecodeContext.stash (c : DecodeContext) (frame : Frame) : DecodeContext :=
  { c with
    pullChannels := frame.channels
    pullPendingSamples := some (interleave frame frame.blocksize)
    pullPendingSampleCount := frame.channels * frame.blocksize
    pullPendingSampleOffset := 0 }

/-- `decode_pull_write_callback`. -/
def decodePullWriteCallback (J : Jvm) (frame : Frame) (m : Machine) : WriteStatus × Machine :=
  let sampleCount := frame.channels * frame.blocksize
  if frame.channels = 0 ∨ frame.blocksize = 0 ∨ 4294967295 < sampleCount ∨ intMax < sampleCount then
    (.abort, m.throwDecode "Decoded PCM frame is too large for one native pull buffer.")
  else if m.context.pullPendingSamples.isSome then
    (.abort, m.throwDecode "Pull decoder still has pending PCM before receiving a new block.")
  else if J.mallocFails m.history then
    (.abort, m.throwDecode "Failed to allocate pull PCM buffer.")
  else
    let drained := drainDecodePullPending (m.withContext (m.context.stash frame))
    (if drained.1 then .cont else .abort, drained.2)

/-! ## Push mode -/

/-- How many frames of a block still belong to the requested range; `none` when none does. -/
def DecodeContext.outputFrames (c : DecodeContext) (frames : ℕ) : Option ℕ :=
  if c.rangeLimited then
    let remaining := sub64 c.maxFrames c.emittedFrames
    if remaining = 0 then none
    else some (min remaining frames)
  else some frames

/-- The context when the requested range turns out to be complete. -/
def DecodeContext.completeRange (c : DecodeContext) : DecodeContext :=
  { c with rangeComplete := true }

/-- The context after `frames` more frames were forwarded. -/
def DecodeContext.emit (c : DecodeContext) (frames : ℕ) : DecodeContext :=
  { c with
    emittedFrames := c.emittedFrames + frames
    rangeComplete :=
      c.rangeComplete || (c.rangeLimited && decide (c.maxFrames ≤ c.emittedFrames + frames)) }

/-- The second half of the write callback: forwards the first `frames` frames to Java. -/
def forwardPcm (J : Jvm) (frame : Frame) (frames : ℕ) (m : Machine) : WriteStatus × Machine :=
  let sampleCount := frame.channels * frames
  if frame.channels = 0 ∨ frames = 0 ∨ intMax < sampleCount then
    (.abort, m.throwDecode "Decoded PCM frame is too large for one JVM IntArray.")
  else
    let m := m.callJava J (.newIntArray sampleCount)
    if m.exceptionCheck then (.abort, m)
    else if J.mallocFails m.history then (.abort, m.throwDecode "Failed to allocate PCM buffer.")
    else
      let m := m.callJava J (.onPcmInterleaved (interleave frame frames) frames)
      if m.exceptionCheck then (.abort, m)
      else (.cont, m.withContext (m.context.emit frames))

/-- `decode_write_callback`. -/
def decodeWriteCallback (J : Jvm) (frame : Frame) (m : Machine) : WriteStatus × Machine :=
  if m.exceptionCheck then (.abort, m)
  -- libFLAC may synthesise silence after an error: none of it reaches Java
  else if m.context.sawError then (.abort, m)
  else if m.context.pullMode then decodePullWriteCallback J frame m
  else
    match m.context.outputFrames frame.blocksize with
    | none => (.cont, m.withContext m.context.completeRange)
    | some frames => forwardPcm J frame frames m

/-! ## Metadata and errors -/

/-- The PCM shape that all links of a chain share. -/
def StreamInfo.sameShape (info first : StreamInfo) : Prop :=
  info.sampleRate = first.sampleRate ∧ info.channels = first.channels ∧
    info.bitsPerSample = first.bitsPerSample

instance (info first : StreamInfo) : Decidable (info.sameShape first) :=
  inferInstanceAs (Decidable (_ ∧ _ ∧ _))

/-- What is reported of a chain: the PCM shape, with the chain-wide fields unknown. -/
def StreamInfo.chainShape (info : StreamInfo) : StreamInfo :=
  { info with
    totalSamples := 0, minBlocksize := 0, maxBlocksize := 0, minFramesize := 0, maxFramesize := 0
    md5sum := List.replicate 16 0 }

/-- The context after STREAMINFO was stored. -/
def DecodeContext.captured (c : DecodeContext) (info : StreamInfo) : DecodeContext :=
  { c with sawStreamInfo := true, streamTotalSamples := info.totalSamples, streamInfo := info }

/-- The context when a link of a chain begins, with the `uint32_t` count of links so far. -/
def DecodeContext.beginLink (c : DecodeContext) (info : StreamInfo) (chainedLinkCount : ℕ) :
    DecodeContext :=
  { c with
    currentLinkTotalSamples := info.totalSamples
    currentLinkStartEmittedFrames := c.emittedFrames
    chainedLinkCount := chainedLinkCount }

/-- The end of the metadata callback: stores STREAMINFO and forwards its public form to Java. -/
def captureStreamInfo (J : Jvm) (info publicInfo : StreamInfo) (m : Machine) : Machine :=
  let m := m.withContext (m.context.captured info)
  if !m.context.consumer || m.context.suppressMetadata then m
  else
    let streamInfo := m.callJavaObject J (.newStreamInfo publicInfo)
    if streamInfo.1 then streamInfo.2.callJava J (.onStreamInfo publicInfo) else streamInfo.2

/-- The exception text for a link of another shape. -/
def chainShapeMessage : String :=
  "Chained Ogg FLAC links must use the same sample rate, channel count, and bits per sample."

/-- `decode_metadata_callback`. -/
def decodeMetadataCallback (J : Jvm) (block : Metadata) (m : Machine) : Machine :=
  match block with
  | .other => m
  | .streamInfo info =>
    if m.context.decodeChainedOgg then
      let count := m.context.chainedLinkCount
      if 0 < count then
        if info.sameShape m.context.streamInfo then
          m.withContext (m.context.beginLink info (add32 count 1))
        else (m.withContext (m.context.beginLink info count)).throwDecode chainShapeMessage
      else
        captureStreamInfo J info info.chainShape (m.withContext (m.context.beginLink info 1))
    else captureStreamInfo J info info m

/-- The context after an error was reported; the first status is kept. -/
def DecodeContext.reportError (c : DecodeContext) (status : ErrorStatus) : DecodeContext :=
  { c with
    firstErrorStatus := if c.sawError then c.firstErrorStatus else status
    sawError := true }

/-- `decode_error_callback`. -/
def decodeErrorCallback (status : ErrorStatus) (m : Machine) : Machine :=
  m.withContext (m.context.reportError status)

/-! ## Answering libFLAC -/

/-- Runs the callback libFLAC invokes. -/
def handle (J : Jvm) : (callback : Callback) → Machine × List TransportCall →
    Reply callback × Machine × List TransportCall
  | .write frame, (m, calls) =>
    let answer := decodeWriteCallback J frame (m.record (.writeCallback frame))
    (answer.1, answer.2, calls)
  | .metadata block, (m, calls) =>
    ((), decodeMetadataCallback J block (m.record (.metadataCallback block)), calls)
  | .error status, (m, calls) =>
    ((), decodeErrorCallback status (m.record (.errorCallback status)), calls)
  | .transport callback, (m, calls) => handleTransport J callback m calls

/-- Calls a libFLAC function that runs callbacks. -/
def LibFlac.call (F : LibFlac D) (J : Jvm) (api : Api) (activity : Activity D)
    (calls : List TransportCall) (m : Machine) : Bool × Stream D × Machine :=
  let r := activity.run (handle J) (m, calls)
  (r.1.1, ⟨r.1.2, r.2.2⟩, r.2.1.record (.returned api r.1.1 (F.getState r.1.2) r.2.1.pending))

/-- Calls `finish_link`, with the error callbacks it makes. -/
def LibFlac.callFinishLink (F : LibFlac D) (s : Stream D) (m : Machine) :
    Bool × Stream D × Machine :=
  let r := F.finishLink s.decoder
  let m := r.1.foldl (fun m status => decodeErrorCallback status (m.record (.errorCallback status))) m
  (r.2.1, ⟨r.2.2, s.transportCalls⟩,
    m.record (.returned .finishLink r.2.1 (F.getState r.2.2) m.pending))

/-- Calls `finish`, after which the decoder is only deleted; the state recorded is the last one
before. -/
def LibFlac.callFinish (F : LibFlac D) (s : Stream D) (m : Machine) : Bool × Machine :=
  (F.finish s.decoder,
    m.record (.returned .finish (F.finish s.decoder) (F.getState s.decoder) m.pending))

end JFlac.Decode
