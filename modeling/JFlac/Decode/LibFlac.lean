import JFlac.Basic
import JFlac.Lib.Calls

/-!
# libFLAC as the decoder sees it

libFLAC is not part of the repository. It is a parameter of the model: a decoder of some type
`D`, the functions of its stream decoder API that the native library calls, and, for those that
run callbacks, a tree of the callbacks made. The callbacks themselves are the repository's code.
-/

namespace JFlac.Decode

/-- `FLAC__int32` in a decoded block, `jint` in a JVM array. -/
abbrev Sample := Int32

/-- What the write callback reads of a `FLAC__Frame` and of the channel buffers. -/
structure Frame where
  channels : ℕ
  blocksize : ℕ
  /-- `buffer[channel][frame]`. -/
  buffer : ℕ → ℕ → Sample
  channels_lt : channels < 4294967296
  blocksize_lt : blocksize < 4294967296

/-- `FLAC__StreamMetadata_StreamInfo`. -/
structure StreamInfo where
  minBlocksize : ℕ
  maxBlocksize : ℕ
  minFramesize : ℕ
  maxFramesize : ℕ
  sampleRate : ℕ
  channels : ℕ
  bitsPerSample : ℕ
  totalSamples : ℕ
  md5sum : List UInt8
  deriving DecidableEq, Repr

/-- The contents of a `memset` STREAMINFO. -/
def StreamInfo.zero : StreamInfo :=
  { minBlocksize := 0, maxBlocksize := 0, minFramesize := 0, maxFramesize := 0, sampleRate := 0
    channels := 0, bitsPerSample := 0, totalSamples := 0, md5sum := List.replicate 16 0 }

/-- `FLAC__StreamMetadata`: only STREAMINFO blocks have contents the decoder reads. -/
inductive Metadata where
  | streamInfo (info : StreamInfo)
  | other
  deriving DecidableEq, Repr

/-- `FLAC__StreamDecoderErrorStatus`. -/
inductive ErrorStatus where
  | lostSync
  | badHeader
  | frameCrcMismatch
  | unparseableStream
  | badMetadata
  | outOfBounds
  | missingFrame
  | other
  deriving DecidableEq, Repr

/-- `decoder_error_status_name`. -/
def decoderErrorStatusName : ErrorStatus → String
  | .lostSync => "LOST_SYNC"
  | .badHeader => "BAD_HEADER"
  | .frameCrcMismatch => "FRAME_CRC_MISMATCH"
  | .unparseableStream => "UNPARSEABLE_STREAM"
  | .badMetadata => "BAD_METADATA"
  | .outOfBounds => "OUT_OF_BOUNDS"
  | .missingFrame => "MISSING_FRAME"
  | .other => "UNKNOWN"

/-- `FLAC__StreamDecoderState`, as far as the code tells the states apart. -/
inductive DecoderState where
  | endOfStream
  | endOfLink
  | aborted
  | other
  deriving DecidableEq, Repr

/-- `FLAC__StreamDecoderWriteStatus`. -/
inductive WriteStatus where
  | cont
  | abort
  deriving DecidableEq, Repr

/-! ## Callbacks -/

/-- The transport callbacks: `read` is given the capacity of libFLAC's buffer. -/
inductive TransportCallback where
  | read (bytes : ℕ)
  | seek (absoluteByteOffset : ℕ)
  | tell
  | length
  | eof
  deriving DecidableEq, Repr

/-- What a read callback reports: `*bytes` and the buffer contents when it continues. -/
inductive ReadReply where
  | cont (bytes : ℕ) (buffer : List UInt8)
  | endOfStream
  | abort
  deriving DecidableEq, Repr

/-- A tell or length callback either fails or stores a value. -/
abbrev OffsetReply := Option ℕ

/-- What each transport callback returns to libFLAC; for `seek` the flag is `STATUS_OK`. -/
abbrev TransportReply : TransportCallback → Type
  | .read _ => ReadReply
  | .seek _ => Bool
  | .tell => OffsetReply
  | .length => OffsetReply
  | .eof => Bool

/-- The callbacks registered with a stream decoder. -/
inductive Callback where
  | write (frame : Frame)
  | metadata (block : Metadata)
  | error (status : ErrorStatus)
  | transport (callback : TransportCallback)

/-- What each callback returns to libFLAC. -/
abbrev Reply : Callback → Type
  | .write _ => WriteStatus
  | .metadata _ => Unit
  | .error _ => Unit
  | .transport callback => TransportReply callback

/-- One libFLAC call: its callbacks, then its boolean and the decoder it leaves. -/
abbrev Activity (D : Type) := Lib.Calls Callback Reply (Bool × D)

/-- Where a decoder reads from, which decides the `init` function and the callbacks given. -/
inductive Transport where
  | file
  | inputStream
  | seekableChannel
  deriving DecidableEq, Repr

/-- The functions of libFLAC's stream decoder API. `none` stands for `NULL`, for a `set` function
that returned false and for an `init` status other than `OK`. -/
structure LibFlac (D : Type) where
  new : Option D
  setMd5Checking : D → Option D
  setDecodeChainedStream : D → Option D
  init : Transport → (container : ℤ) → D → Option D
  processUntilEndOfMetadata : D → Activity D
  processUntilEndOfLink : D → Activity D
  processUntilEndOfStream : D → Activity D
  processSingle : D → Activity D
  seekAbsolute : D → (sample : ℕ) → Activity D
  /-- `finish_link` decodes nothing; it may report errors. -/
  finishLink : D → List ErrorStatus × Bool × D
  finish : D → Bool
  getState : D → DecoderState
  getResolvedStateString : D → Option String

/-- `process_until_end_of_metadata` stops before the first frame: it hands out no decoded block. -/
def LibFlac.MetadataOnly {D : Type} (F : LibFlac D) : Prop :=
  ∀ d, (F.processUntilEndOfMetadata d).Requests fun callback => ∀ frame, callback ≠ .write frame

/-- The API functions whose result decides how an operation ends. -/
inductive Api where
  | processUntilEndOfMetadata
  | processUntilEndOfLink
  | processUntilEndOfStream
  | processSingle
  | seekAbsolute
  | finishLink
  | finish
  deriving DecidableEq, Repr

/-- The functions that decode audio, as opposed to opening, seeking and finishing. -/
def Api.isProcess : Api → Bool
  | .processUntilEndOfLink | .processUntilEndOfStream | .processSingle => true
  | _ => false

end JFlac.Decode
