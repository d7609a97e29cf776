import JFlac.Basic

/-!
# Encoder channel callbacks

How libFLAC's stream encoder writes to a `SeekableByteChannel`, and reads back from it to patch what
it wrote. As for the decoder, offsets given to libFLAC are relative to the channel position captured
at open, and the channel is a parameter: what it answers may depend on all calls made before.
-/

namespace JFlac.Encode

/-- The calls an encoder callback makes on the caller's channel, with the allocation of the buffer
around libFLAC's memory. A write is given the bytes that remain in its buffer. -/
inductive ChannelCall where
  | newDirectByteBuffer (capacity : ℕ)
  | read (capacity : ℕ)
  | write (bytes : List UInt8)
  | position
  | setPosition (position : ℤ)
  deriving DecidableEq, Repr

/-- What a channel call returns, and the bytes it has put into the buffer. -/
structure ChannelValue where
  value : ℤ
  bytes : List UInt8

/-- The caller's channel, by the calls made on it before. -/
abbrev ChannelObject := List ChannelCall → ChannelCall → Except Throwable ChannelValue

/-- `EncodeContext`, as far as the channel callbacks read it. A reference is modelled by whether it
is set; its method IDs are resolved before it is. -/
structure EncodeContext where
  outputChannel : Bool
  channelBaseOffset : ℤ
  deriving DecidableEq, Repr

/-- The pending exception and the calls made on the channel. -/
structure State where
  pending : Option Throwable
  calls : List ChannelCall
  deriving DecidableEq

namespace State

/-- `(*env)->ExceptionCheck(env)`. -/
def exceptionCheck (s : State) : Bool := s.pending.isSome

/-- `throw_encode_exception`. -/
def throwEncode (s : State) (message : String) : State :=
  { s with pending := some (.flacEncodeException message) }

/-- A call on the channel; `none` when it raised or, an exception being pending already, was not
executed. -/
def callChannel (C : ChannelObject) (call : ChannelCall) (s : State) :
    Option ChannelValue × State :=
  if s.exceptionCheck then (none, s)
  else
    match C s.calls call with
    | .ok value => (some value, { s with calls := s.calls ++ [call] })
    | .error exception => (none, { pending := some exception, calls := s.calls ++ [call] })

end State

/-! ## The callbacks -/

/-- What a read callback reports: `*bytes` and the buffer contents when it continues. -/
inductive ReadReply where
  | cont (bytes : ℕ) (buffer : List UInt8)
  | endOfStream
  | abort
  deriving DecidableEq, Repr

variable (C : ChannelObject) (context : EncodeContext)

/-- `encode_channel_read_callback`. -/
def encodeChannelReadCallback (bytes : ℕ) (s : State) : ReadReply × State :=
  if !context.outputChannel then (.abort, s)
  else if s.exceptionCheck then (.abort, s)
  else if bytes = 0 then (.abort, s)
  else if intMax < bytes then
    (.abort, s.throwEncode "SeekableByteChannel read-back request is too large for one ByteBuffer.")
  else
    match s.callChannel C (.newDirectByteBuffer bytes) with
    | (none, s) => (.abort, s)
    | (some _, s) =>
      match s.callChannel C (.read bytes) with
      | (none, s) => (.abort, s)
      | (some read, s) =>
        if read.value ≤ 0 then (.endOfStream, s) else (.cont read.value.toNat read.bytes, s)

/-- The exception text of a channel that takes no bytes. -/
def zeroWriteMessage : String :=
  "SeekableByteChannel returned zero bytes for a non-empty write request."

/-- The loop of `encode_channel_write_callback`, which repeats partial writes: the flag is
`WRITE_STATUS_OK`, and the result is `none` when the rounds do not suffice. -/
def writeLoop (buffer : List UInt8) : ℕ → ℕ → State → Option Bool × State
  | 0, _, s => (none, s)
  | rounds + 1, writtenTotal, s =>
    if writtenTotal < buffer.length then
      match s.callChannel C (.write (buffer.drop writtenTotal)) with
      | (none, s) => (some false, s)
      | (some written, s) =>
        -- zero is legal for a channel, but would make this loop spin
        if written.value ≤ 0 then (some false, s.throwEncode zeroWriteMessage)
        else writeLoop buffer rounds (writtenTotal + written.value.toNat) s
    else (some true, s)

/-- `encode_channel_write_callback`. -/
def encodeChannelWriteCallback (rounds : ℕ) (buffer : List UInt8) (s : State) :
    Option Bool × State :=
  if !context.outputChannel then (some false, s)
  else if s.exceptionCheck then (some false, s)
  else if intMax < buffer.length then
    (some false, s.throwEncode "Encoded FLAC chunk is too large for one ByteBuffer.")
  else
    match s.callChannel C (.newDirectByteBuffer buffer.length) with
    | (none, s) => (some false, s)
    | (some _, s) => writeLoop C buffer rounds 0 s

/-- `encode_channel_seek_callback`; the flag is `SEEK_STATUS_OK`. -/
def encodeChannelSeekCallback (absoluteByteOffset : ℕ) (s : State) : Bool × State :=
  let base := context.channelBaseOffset
  if !context.outputChannel || (longMax - base).toNat < absoluteByteOffset then (false, s)
  else
    match s.callChannel C (.setPosition (base + absoluteByteOffset)) with
    | (none, s) => (false, s)
    | (some _, s) => (true, s)

/-- `encode_channel_tell_callback`. -/
def encodeChannelTellCallback (s : State) : Option ℕ × State :=
  if !context.outputChannel then (none, s)
  else
    match s.callChannel C .position with
    | (none, s) => (none, s)
    | (some position, s) =>
      if position.value < context.channelBaseOffset then (none, s)
      else (some (position.value - context.channelBaseOffset).toNat, s)

end JFlac.Encode
