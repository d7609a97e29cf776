import JFlac.Decode.LibFlac

/-!
# The decode context and the JVM around it

`DecodeContext` is the `client_data` of every callback. Around it the model keeps what the native
code shares with the JVM: the pending exception and the record of what has happened so far. The
JVM is a parameter: whether a Java call raises, whether an allocation fails and what a transport
object answers may depend on everything recorded before.
-/

namespace JFlac.Decode

/-- The Java calls the decoder makes on a consumer and on the JVM itself. -/
inductive JavaCall where
  | getObjectClass
  | getMethodID (name : String)
  | newGlobalRef
  | findClass (name : String)
  /-- `jstring_to_utf8`. -/
  | encodePath
  /-- `new_stream_info`. -/
  | newStreamInfo (info : StreamInfo)
  | newPullDecoderOpenResult (info : StreamInfo)
  | newIntArray (length : ℕ)
  | onStreamInfo (info : StreamInfo)
  | onPcmInterleaved (samples : List Sample) (frames : ℕ)
  | onComplete
  deriving DecidableEq, Repr

/-- How a Java call ended. A call made while an exception is pending is not executed: the JVM
returns to the caller with that exception still pending. -/
inductive JavaOutcome where
  | returned
  | threw (exception : Throwable)
  | skipped
  deriving DecidableEq, Repr

/-- What can be observed of a decode. -/
inductive Event where
  /-- libFLAC invoked the write, metadata or error callback. -/
  | writeCallback (frame : Frame)
  | metadataCallback (block : Metadata)
  | errorCallback (status : ErrorStatus)
  /-- The native code called Java. -/
  | java (call : JavaCall) (outcome : JavaOutcome)
  /-- The native code raised an exception of its own: a rejected argument, a failed allocation, a
  refused block or a failed check. -/
  | raised (exception : Throwable)
  /-- The native code raised an exception to report that a libFLAC call failed. -/
  | reported (exception : Throwable)
  /-- A call on the transport object raised. -/
  | transportThrew (exception : Throwable)
  /-- A libFLAC function returned, leaving the decoder in `state`, with this exception pending. -/
  | returned (api : Api) (success : Bool) (state : DecoderState) (pending : Option Throwable)

/-- The calls a transport callback makes on the caller's `InputStream` or `SeekableByteChannel`,
with the allocation of the array or buffer it reads into. -/
inductive TransportCall where
  | newByteArray (length : ℕ)
  | newDirectByteBuffer (capacity : ℕ)
  | inputRead (length : ℕ)
  | getByteArrayRegion (length : ℤ)
  | channelRead (capacity : ℕ)
  | position
  | setPosition (position : ℤ)
  | size
  deriving DecidableEq, Repr

/-- What a transport call returns, and the bytes it has put into the array or buffer. -/
structure TransportValue where
  value : ℤ
  bytes : List UInt8

/-- The JVM and the objects the caller supplied. -/
structure Jvm where
  /-- The exception a Java call raises, if any. -/
  throws : List Event → JavaCall → Option Throwable
  /-- Whether the next `malloc` or `calloc` fails. -/
  mallocFails : List Event → Bool
  /-- The behaviour of the transport object, by the calls made on it before. -/
  transport : List TransportCall → TransportCall → Except Throwable TransportValue

/-- The transport fields of a `DecodeContext`. A reference is modelled by whether it is set; its
method IDs are resolved before it is. -/
structure Source where
  inputStream : Bool
  inputStreamIsGlobal : Bool
  seekableChannel : Bool
  channelBaseOffset : ℤ
  deriving DecidableEq, Repr

/-- `DecodeContext`. Booleans are the C `int` flags; `pullOutput` is the JVM array behind the
reference, `pullPendingSamples` the allocated block behind the pointer. -/
structure DecodeContext where
  consumer : Bool
  source : Source
  sawError : Bool
  firstErrorStatus : ErrorStatus
  suppressMetadata : Bool
  sawStreamInfo : Bool
  streamTotalSamples : ℕ
  streamInfo : StreamInfo
  decodeChainedOgg : Bool
  chainedLinkCount : ℕ
  chainedLinkMd5Failed : Bool
  currentLinkTotalSamples : ℕ
  currentLinkStartEmittedFrames : ℕ
  rangeLimited : Bool
  maxFrames : ℕ
  firstSample : ℕ
  emittedFrames : ℕ
  rangeComplete : Bool
  pullMode : Bool
  pullOutput : Option (List Sample)
  pullOutputCapacitySamples : ℕ
  pullChannels : ℕ
  pullRequestedFrames : ℕ
  pullWrittenFrames : ℕ
  pullEndOfStream : Bool
  pullPendingSamples : Option (List Sample)
  pullPendingSampleCount : ℕ
  pullPendingSampleOffset : ℕ
  deriving DecidableEq, Repr

/-- `memset(&context, 0, sizeof(context))`, or a `calloc`ed session's context. -/
def DecodeContext.zero : DecodeContext :=
  { consumer := false
    source :=
      { inputStream := false, inputStreamIsGlobal := false, seekableChannel := false
        channelBaseOffset := 0 }
    sawError := false
    firstErrorStatus := .lostSync
    suppressMetadata := false
    sawStreamInfo := false
    streamTotalSamples := 0
    streamInfo := StreamInfo.zero
    decodeChainedOgg := false
    chainedLinkCount := 0
    chainedLinkMd5Failed := false
    currentLinkTotalSamples := 0
    currentLinkStartEmittedFrames := 0
    rangeLimited := false
    maxFrames := 0
    firstSample := 0
    emittedFrames := 0
    rangeComplete := false
    pullMode := false
    pullOutput := none
    pullOutputCapacitySamples := 0
    pullChannels := 0
    pullRequestedFrames := 0
    pullWrittenFrames := 0
    pullEndOfStream := false
    pullPendingSamples := none
    pullPendingSampleCount := 0
    pullPendingSampleOffset := 0 }

/-- The native thread's view during an operation. -/
structure Machine where
  context : DecodeContext
  /-- The exception pending in the JNI environment. -/
  pending : Option Throwable
  history : List Event

/-- A libFLAC decoder with the calls made so far on the transport it reads from. -/
structure Stream (D : Type) where
  decoder : D
  transportCalls : List TransportCall

namespace Machine

/-- `(*env)->ExceptionCheck(env)`. -/
def exceptionCheck (m : Machine) : Bool := m.pending.isSome

/-- Adds to the record of what happened. -/
def record (m : Machine) (event : Event) : Machine := { m with history := m.history ++ [event] }

/-- Replaces the decode context. -/
def withContext (m : Machine) (context : DecodeContext) : Machine := { m with context := context }

/-- `(*env)->ThrowNew`: the new exception becomes the pending one. -/
def raise (m : Machine) (exception : Throwable) : Machine :=
  { m with pending := some exception, history := m.history ++ [.raised exception] }

/-- `throw_decode_exception`. -/
def throwDecode (m : Machine) (message : String) : Machine :=
  m.raise (.flacDecodeException message)

/-- `throw_decode_exception`, to report that a libFLAC call failed. -/
def report (m : Machine) (message : String) : Machine :=
  { m with
    pending := some (.flacDecodeException message)
    history := m.history ++ [.reported (.flacDecodeException message)] }

/-- `throw_illegal_argument_exception`. -/
def throwIllegalArgument (m : Machine) (message : String) : Machine :=
  m.raise (.illegalArgumentException message)

/-- `throw_illegal_state_exception`. -/
def throwIllegalState (m : Machine) (message : String) : Machine :=
  m.raise (.illegalStateException message)

/-- A Java call. -/
def callJava (J : Jvm) (call : JavaCall) (m : Machine) : Machine :=
  match m.pending with
  | some _ => m.record (.java call .skipped)
  | none =>
    match J.throws m.history call with
    | none => m.record (.java call .returned)
    | some exception =>
      { m with pending := some exception, history := m.history ++ [.java call (.threw exception)] }

/-- A Java call that yields a reference: the flag says that the result is not `NULL`. -/
def callJavaObject (J : Jvm) (call : JavaCall) (m : Machine) : Bool × Machine :=
  (!(m.callJava J call).exceptionCheck, m.callJava J call)

/-- Several lookups in a row: the flag says that none of them returned `NULL`. -/
def resolve (J : Jvm) (calls : List JavaCall) (m : Machine) : Bool × Machine :=
  let m := calls.foldl (fun m call => m.callJava J call) m
  (!m.exceptionCheck, m)

/-- A call on the transport object, after the given calls; `none` when it raised or, an exception
being pending already, was not executed. -/
def callTransport (J : Jvm) (call : TransportCall) (m : Machine) (calls : List TransportCall) :
    Option TransportValue × Machine × List TransportCall :=
  if m.exceptionCheck then (none, m, calls)
  else
    match J.transport calls call with
    | .ok value => (some value, m, calls ++ [call])
    | .error exception =>
      (none,
        { m with pending := some exception, history := m.history ++ [.transportThrew exception] },
        calls ++ [call])

end Machine

/-! ## Messages -/

/-- `JFLAC_MESSAGE_BUFFER_SIZE`. -/
def messageBufferSize : ℕ := 256

/-- `snprintf` into a message buffer. -/
def snprintf (text : String) : String := String.ofList (text.toList.take (messageBufferSize - 1))

/-- `": STATE"` when the state string is not `NULL`. -/
def stateText : Option String → String
  | some state => ": " ++ state
  | none => ""

/-- `" (decoder error callback: STATUS)"` when an error was reported. -/
def errorText (context : DecodeContext) : String :=
  if context.sawError then
    " (decoder error callback: " ++ decoderErrorStatusName context.firstErrorStatus ++ ")"
  else ""

/-- The failure text of an operation: what failed, libFLAC's state and the first error. -/
def failureMessage (what : String) (state : Option String) (context : DecodeContext) : String :=
  snprintf (what ++ stateText state ++ errorText context ++ ".")

end JFlac.Decode
