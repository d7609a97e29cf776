import JFlac.Lib.Tables
import JFlac.Metadata.Validation

/-!
# The JVM views of one decode

Three consumers receive the PCM callbacks of a decode. `BufferingPcmConsumer` collects them into one
array; the two forwarding consumers hand them on as chunks, interleaved or with one array for each
channel. Each of them checks the callbacks in its own way.

Frame counts and channel counts are values of a JVM `Int`, so that their product fits a `Long`.
-/

namespace JFlac.Pcm

open Lib
open Metadata (FlacStreamInfo require)

/-! ## Kotlin's checks and arithmetic -/

/-- A `Long` after it has wrapped around. -/
def wrapLong (n : ℤ) : ℤ := n.bmod 18446744073709551616

/-- `Long.toInt()`. -/
def wrapInt (n : ℤ) : ℤ := n.bmod 4294967296

/-- The `ArithmeticException` of `Math.addExact`. -/
def longOverflow : Throwable := .java 0

/-- `Math.addExact`. -/
def addExact (a b : ℤ) : Except Throwable ℤ :=
  if -longMax - 1 ≤ a + b ∧ a + b ≤ longMax then .ok (a + b) else .error longOverflow

/-- `check`. -/
def check (condition : Prop) [Decidable condition] (message : String) : Except Throwable Unit :=
  if condition then .ok () else .error (.illegalStateException message)

/-- `checkNotNull`. -/
def checkNotNull {α : Type} (value : Option α) (message : String) : Except Throwable α :=
  value.elim (.error (.illegalStateException message)) .ok

/-- `validateDecodeRange`. -/
def validateDecodeRange (firstSample : ℤ) (maxFrames : Option ℤ) : Except Throwable Unit := do
  require (0 ≤ firstSample) "First sample must be non-negative."
  require (maxFrames.all (0 ≤ ·)) "Max frames must be non-negative."
  require (maxFrames.all (· ≤ longMax - firstSample)) "Decode range end must not overflow Long."

/-- `validateDecodedFrameCount`. -/
def validateDecodedFrameCount (streamInfo : FlacStreamInfo) (firstSample : ℤ)
    (maxFrames : Option ℤ) (totalFrames : ℤ) : Except Throwable Unit := do
  check (maxFrames.all (totalFrames ≤ ·))
    ("Decoded frame count " ++ toString totalFrames ++ " exceeds maximum frame count " ++
      toString (maxFrames.getD 0) ++ ".")
  if streamInfo.totalSamples ≤ 0 then
    pure ()
  else
    let availableFrames := streamInfo.totalSamples - firstSample
    check (0 ≤ availableFrames) "Decode range starts after STREAMINFO totalSamples."
    let expectedFrames := maxFrames.elim availableFrames (min · availableFrames)
    check (expectedFrames = totalFrames)
      ("Decoded frame count " ++ toString totalFrames ++ " does not match expected frame count " ++
        toString expectedFrames ++ ".")

/-! ## Results and chunks -/

/-- `FlacDecodedAudio`; its constructor checks the size of the array. -/
@[ext] structure FlacDecodedAudio where
  streamInfo : FlacStreamInfo
  interleavedSamples : List ℤ
  totalFrames : ℤ
  totalFrames_nonneg : 0 ≤ totalFrames
  count_le : wrapLong (totalFrames * streamInfo.channels) ≤ intMax
  length_eq : (interleavedSamples.length : ℤ) =
    wrapInt (wrapLong (totalFrames * streamInfo.channels))
  deriving Repr

instance : DecidableEq FlacDecodedAudio := fun _ _ =>
  decidable_of_iff _ FlacDecodedAudio.ext_iff.symm

/-- The constructor of `FlacDecodedAudio`. -/
def FlacDecodedAudio.new (streamInfo : FlacStreamInfo) (interleavedSamples : List ℤ)
    (totalFrames : ℤ) : Except Throwable FlacDecodedAudio :=
  if hnonneg : 0 ≤ totalFrames then
    if hcount : wrapLong (totalFrames * streamInfo.channels) ≤ intMax then
      if hlength : (interleavedSamples.length : ℤ) =
          wrapInt (wrapLong (totalFrames * streamInfo.channels)) then
        .ok ⟨streamInfo, interleavedSamples, totalFrames, hnonneg, hcount, hlength⟩
      else .error (.illegalArgumentException
        "Interleaved sample count must equal totalFrames * channels.")
    else .error (.illegalArgumentException
      "Decoded sample count is too large for one JVM IntArray.")
  else .error (.illegalArgumentException "Total frame count must be non-negative.")

/-- `FlacDecodedAudio.splitByChannel`. -/
def FlacDecodedAudio.splitByChannel (audio : FlacDecodedAudio) :
    Except Throwable (List (List ℤ)) := do
  require (audio.totalFrames ≤ intMax)
    "Channel split requires totalFrames to fit in one JVM IntArray length."
  pure (deal 0 audio.interleavedSamples audio.streamInfo.channels.toNat audio.totalFrames.toNat)

/-- `FlacInterleavedPcmChunk`; its constructor checks the size of the array. -/
@[ext] structure FlacInterleavedPcmChunk where
  streamInfo : FlacStreamInfo
  interleavedSamples : List ℤ
  frames : ℤ
  firstFrameIndex : ℤ
  frames_nonneg : 0 ≤ frames
  firstFrameIndex_nonneg : 0 ≤ firstFrameIndex
  count_le : frames * streamInfo.channels ≤ intMax
  length_eq : (interleavedSamples.length : ℤ) = wrapInt (frames * streamInfo.channels)
  deriving Repr

instance : DecidableEq FlacInterleavedPcmChunk := fun _ _ =>
  decidable_of_iff _ FlacInterleavedPcmChunk.ext_iff.symm

/-- The constructor of `FlacInterleavedPcmChunk`. -/
def FlacInterleavedPcmChunk.new (streamInfo : FlacStreamInfo) (interleavedSamples : List ℤ)
    (frames firstFrameIndex : ℤ) : Except Throwable FlacInterleavedPcmChunk :=
  if hframes : 0 ≤ frames then
    if hfirst : 0 ≤ firstFrameIndex then
      if hcount : frames * streamInfo.channels ≤ intMax then
        if hlength : (interleavedSamples.length : ℤ) = wrapInt (frames * streamInfo.channels) then
          .ok ⟨streamInfo, interleavedSamples, frames, firstFrameIndex, hframes, hfirst, hcount,
            hlength⟩
        else .error (.illegalArgumentException
          "Interleaved sample count must equal frames * channels.")
      else .error (.illegalArgumentException "PCM chunk is too large for one JVM IntArray.")
    else .error (.illegalArgumentException "First frame index must be non-negative.")
  else .error (.illegalArgumentException "Frame count must be non-negative.")

/-- `FlacInterleavedPcmChunk.splitByChannel`. -/
def FlacInterleavedPcmChunk.splitByChannel (chunk : FlacInterleavedPcmChunk) : List (List ℤ) :=
  deal 0 chunk.interleavedSamples chunk.streamInfo.channels.toNat chunk.frames.toNat

/-- `FlacChannelPcmChunk`; its constructor checks the size of every array. -/
@[ext] structure FlacChannelPcmChunk where
  streamInfo : FlacStreamInfo
  channelSamples : List (List ℤ)
  frames : ℤ
  firstFrameIndex : ℤ
  frames_nonneg : 0 ≤ frames
  firstFrameIndex_nonneg : 0 ≤ firstFrameIndex
  length_eq : (channelSamples.length : ℤ) = streamInfo.channels
  lengths_eq : ∀ samples ∈ channelSamples, (samples.length : ℤ) = frames
  deriving Repr

instance : DecidableEq FlacChannelPcmChunk := fun _ _ =>
  decidable_of_iff _ FlacChannelPcmChunk.ext_iff.symm

/-- The constructor of `FlacChannelPcmChunk`. -/
def FlacChannelPcmChunk.new (streamInfo : FlacStreamInfo) (channelSamples : List (List ℤ))
    (frames firstFrameIndex : ℤ) : Except Throwable FlacChannelPcmChunk :=
  if hframes : 0 ≤ frames then
    if hfirst : 0 ≤ firstFrameIndex then
      if hlength : (channelSamples.length : ℤ) = streamInfo.channels then
        if hlengths : ∀ samples ∈ channelSamples, (samples.length : ℤ) = frames then
          .ok ⟨streamInfo, channelSamples, frames, firstFrameIndex, hframes, hfirst, hlength,
            hlengths⟩
        else .error (.illegalArgumentException
          "Each channel sample array must contain exactly 'frames' samples.")
      else .error (.illegalArgumentException
        "Channel sample list size must equal the FLAC channel count.")
    else .error (.illegalArgumentException "First frame index must be non-negative.")
  else .error (.illegalArgumentException "Frame count must be non-negative.")

/-- `toChannelChunk`. -/
def FlacInterleavedPcmChunk.toChannelChunk (chunk : FlacInterleavedPcmChunk) :
    Except Throwable FlacChannelPcmChunk :=
  FlacChannelPcmChunk.new chunk.streamInfo chunk.splitByChannel chunk.frames
    chunk.firstFrameIndex

/-- `FlacDecodeSummary`. -/
@[ext] structure FlacDecodeSummary where
  streamInfo : FlacStreamInfo
  totalFrames : ℤ
  totalFrames_nonneg : 0 ≤ totalFrames
  deriving Repr

instance : DecidableEq FlacDecodeSummary := fun _ _ =>
  decidable_of_iff _ FlacDecodeSummary.ext_iff.symm

/-- The constructor of `FlacDecodeSummary`. -/
def FlacDecodeSummary.new (streamInfo : FlacStreamInfo) (totalFrames : ℤ) :
    Except Throwable FlacDecodeSummary :=
  if h : 0 ≤ totalFrames then .ok ⟨streamInfo, totalFrames, h⟩
  else .error (.illegalArgumentException "Total frame count must be non-negative.")

/-! ## The consumers -/

/-- The arguments of `onPcmInterleaved`. -/
structure PcmCallback where
  samples : List ℤ
  frames : ℤ
  deriving DecidableEq, Repr

/-- `BufferingPcmConsumer`. -/
structure BufferingPcmConsumer where
  firstFrameIndex : ℤ
  maxFrames : Option ℤ
  streamInfo : Option FlacStreamInfo
  chunks : List (List ℤ)
  totalFrames : ℤ
  totalSamples : ℤ
  completed : Bool
  deriving DecidableEq, Repr

namespace BufferingPcmConsumer

/-- The constructor. -/
def new (firstFrameIndex : ℤ) (maxFrames : Option ℤ) : Except Throwable BufferingPcmConsumer := do
  validateDecodeRange firstFrameIndex maxFrames
  pure ⟨firstFrameIndex, maxFrames, none, [], 0, 0, false⟩

variable (c : BufferingPcmConsumer)

/-- `onStreamInfo`. -/
def onStreamInfo (info : FlacStreamInfo) : Except Throwable BufferingPcmConsumer := do
  check c.streamInfo.isNone "STREAMINFO was delivered more than once."
  pure { c with streamInfo := some info }

/-- `onPcmInterleaved`. -/
def onPcmInterleaved (callback : PcmCallback) : Except Throwable BufferingPcmConsumer := do
  let currentInfo ← checkNotNull c.streamInfo "PCM data arrived before STREAMINFO was delivered."
  check (c.completed = false) "PCM data arrived after decoding completed."
  let expectedSampleCount := callback.frames * currentInfo.channels
  require (0 ≤ callback.frames) "Frame count must be non-negative."
  require (expectedSampleCount ≤ intMax) "PCM chunk is too large for one JVM IntArray."
  require (callback.samples.length = wrapInt expectedSampleCount)
    "PCM chunk size must equal frames * channels."
  pure { c with
    chunks := c.chunks ++ [callback.samples]
    totalFrames := wrapLong (c.totalFrames + callback.frames)
    totalSamples := wrapLong (c.totalSamples + callback.samples.length) }

/-- `onComplete`. -/
def onComplete : BufferingPcmConsumer := { c with completed := true }

/-- `toDecodedAudio`. -/
def toDecodedAudio : Except Throwable FlacDecodedAudio := do
  let currentInfo ← checkNotNull c.streamInfo "STREAMINFO was never delivered by the decoder."
  check c.completed "Decoding has not completed yet."
  check (c.totalSamples ≤ intMax) "Decoded sample count is too large for one JVM IntArray."
  validateDecodedFrameCount currentInfo c.firstFrameIndex c.maxFrames c.totalFrames
  FlacDecodedAudio.new currentInfo c.chunks.flatten c.totalFrames

/-- A decode into one array. -/
def decode (firstFrameIndex : ℤ) (maxFrames : Option ℤ) (info : FlacStreamInfo)
    (callbacks : List PcmCallback) : Except Throwable FlacDecodedAudio := do
  let c ← new firstFrameIndex maxFrames
  let c ← c.onStreamInfo info
  let c ← callbacks.foldlM onPcmInterleaved c
  c.onComplete.toDecodedAudio

end BufferingPcmConsumer

/-- `SummaryTrackingPcmConsumer`, with the chunks its handler has received. -/
structure SummaryTrackingPcmConsumer (Chunk : Type) where
  firstFrameIndex : ℤ
  maxFrames : Option ℤ
  streamInfo : Option FlacStreamInfo
  totalFrames : ℤ
  completed : Bool
  received : List Chunk
  deriving DecidableEq, Repr

namespace SummaryTrackingPcmConsumer

variable {Chunk : Type}

/-- The constructor. -/
def new (firstFrameIndex : ℤ) (maxFrames : Option ℤ) :
    Except Throwable (SummaryTrackingPcmConsumer Chunk) := do
  validateDecodeRange firstFrameIndex maxFrames
  pure ⟨firstFrameIndex, maxFrames, none, 0, false, []⟩

variable (c : SummaryTrackingPcmConsumer Chunk)

/-- `onStreamInfo`. -/
def onStreamInfo (info : FlacStreamInfo) : Except Throwable (SummaryTrackingPcmConsumer Chunk) := do
  check c.streamInfo.isNone "STREAMINFO was delivered more than once."
  pure { c with streamInfo := some info }

/-- `onPcmInterleaved`; `handleChunk` is the conversion for the handler. -/
def onPcmInterleaved (handleChunk : FlacInterleavedPcmChunk → Except Throwable Chunk)
    (c : SummaryTrackingPcmConsumer Chunk) (callback : PcmCallback) :
    Except Throwable (SummaryTrackingPcmConsumer Chunk) := do
  let currentInfo ← checkNotNull c.streamInfo "PCM data arrived before STREAMINFO was delivered."
  check (c.completed = false) "PCM data arrived after decoding completed."
  let firstFrameIndex ← addExact c.firstFrameIndex c.totalFrames
  let chunk ← FlacInterleavedPcmChunk.new currentInfo callback.samples callback.frames
    firstFrameIndex
  let totalFrames ← addExact c.totalFrames callback.frames
  let handled ← handleChunk chunk
  pure { c with totalFrames := totalFrames, received := c.received ++ [handled] }

/-- `summary`. -/
def summary : Except Throwable FlacDecodeSummary := do
  let currentInfo ← checkNotNull c.streamInfo "STREAMINFO was never delivered by the decoder."
  check c.completed "Decoding has not completed yet."
  validateDecodedFrameCount currentInfo c.firstFrameIndex c.maxFrames c.totalFrames
  FlacDecodeSummary.new currentInfo c.totalFrames

/-- `onComplete`: the summary is handed to the handler. -/
def onComplete : Except Throwable (SummaryTrackingPcmConsumer Chunk × FlacDecodeSummary) := do
  let summary ← { c with completed := true }.summary
  pure ({ c with completed := true }, summary)

/-- A decode into chunks, with its summary. -/
def decode (handleChunk : FlacInterleavedPcmChunk → Except Throwable Chunk) (firstFrameIndex : ℤ)
    (maxFrames : Option ℤ) (info : FlacStreamInfo) (callbacks : List PcmCallback) :
    Except Throwable (List Chunk × FlacDecodeSummary) := do
  let c ← new firstFrameIndex maxFrames
  let c ← c.onStreamInfo info
  let c ← callbacks.foldlM (onPcmInterleaved handleChunk) c
  let completed ← c.onComplete
  pure (completed.1.received, completed.2)

end SummaryTrackingPcmConsumer

/-- A decode through `InterleavedForwardingPcmConsumer`. -/
def decodeInterleavedChunks (firstFrameIndex : ℤ) (maxFrames : Option ℤ) (info : FlacStreamInfo)
    (callbacks : List PcmCallback) :
    Except Throwable (List FlacInterleavedPcmChunk × FlacDecodeSummary) :=
  SummaryTrackingPcmConsumer.decode .ok firstFrameIndex maxFrames info callbacks

/-- A decode through `ChannelForwardingPcmConsumer`. -/
def decodeChannelChunks (firstFrameIndex : ℤ) (maxFrames : Option ℤ) (info : FlacStreamInfo)
    (callbacks : List PcmCallback) :
    Except Throwable (List FlacChannelPcmChunk × FlacDecodeSummary) :=
  SummaryTrackingPcmConsumer.decode FlacInterleavedPcmChunk.toChannelChunk firstFrameIndex maxFrames
    info callbacks

end JFlac.Pcm
