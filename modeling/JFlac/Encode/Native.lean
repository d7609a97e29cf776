import JFlac.Decode.Machine
import JFlac.Encode.Embedded
import JFlac.Handles.Functions
import JFlac.Metadata.Ownership

/-!
# The native encoder

How `jflac_jni.c` opens an encoder, feeds it and ends it. libFLAC's stream encoder is a parameter,
as the decoder is: its setters return a boolean, and the functions that write are trees of the
callbacks they make. The caller's `OutputStream` or channel is a parameter too, and so is everything
that can fail in the JVM and in the C library while an encoder is opened.

Every call of an `openEncoder*` function has a number, and what happens to the encoder, its context
and its references is recorded under that number.
-/

namespace JFlac.Encode

open Metadata

/-! ## libFLAC -/

/-- The setters of an encoder that return a boolean, with their argument. -/
inductive Setting where
  | verify (value : Bool)
  | streamableSubset (value : Bool)
  | channels (value : ℕ)
  | bitsPerSample (value : ℕ)
  | sampleRate (value : ℕ)
  | compressionLevel (value : ℕ)
  | blocksize (value : ℕ)
  | oggSerialNumber (value : ℤ)
  | totalSamplesEstimate (value : ℕ)
  deriving DecidableEq, Repr

/-- The status of `stream_encoder_set_num_threads`. -/
inductive ThreadStatus where
  | ok
  | notCompiledWithMultithreadingEnabled
  | alreadyInitialized
  | tooManyThreads
  | other
  deriving DecidableEq, Repr

/-- Where an encoder writes to, which decides the `init` function and the callbacks given. -/
inductive Output where
  | file
  | outputStream
  | seekableChannel
  deriving DecidableEq, Repr

/-- One libFLAC call: its callbacks, then its boolean and the encoder it leaves. -/
abbrev Activity (E : Type) := Lib.Calls ChannelCallback ChannelReply (Bool × E)

/-- The functions of libFLAC's stream encoder API. The boolean of `init` is the status `OK`, that of
`delete` means nothing. -/
structure LibFlac (E : Type) where
  new : E
  setNumThreads : (numThreads : ℕ) → E → ThreadStatus × E
  set : Setting → E → Bool × E
  setMetadata : List (Option StreamMetadata) → E → Bool × E
  init : Output → (container : ℤ) → E → Activity E
  processInterleaved : (samples : List ℤ) → (frames : ℕ) → E → Activity E
  finish : E → Activity E
  delete : E → Activity E
  getResolvedStateString : E → Option String

/-! ## Around an encoder -/

/-- The calls on the caller's `OutputStream`, with those that make the array it is given. -/
inductive StreamCall where
  | newByteArray (length : ℕ)
  | setByteArrayRegion (length : ℕ)
  | write (bytes : List UInt8)
  | flush
  deriving DecidableEq, Repr

/-- The caller's `OutputStream`, by the calls made before. -/
abbrev StreamObject := List StreamCall → StreamCall → Except Throwable Unit

/-- The object that the caller gave to an open. -/
structure Objects where
  stream : StreamObject
  channel : ChannelObject

/-- What happened to an encoder, its context, its path and its references. A block is known by its
number, in the order in which the blocks of the context were built. -/
inductive Event where
  | mallocPath
  | freePath
  | callocContext
  | freeContext
  | newGlobalRef
  | deleteGlobalRef
  | new
  | setNumThreads (numThreads : ℕ)
  | set (setting : Setting)
  | setMetadata (slots : List (Option ℕ)) (blocks : List (Option StreamMetadata))
  | init (output : Output) (container : ℤ) (success : Bool)
  | processInterleaved (samples : List ℤ) (frames : ℕ) (success : Bool)
  | finish (success : Bool)
  | delete
  | deleteBlocks (ids : List ℕ)
  deriving DecidableEq

/-- An `EncodeContext`, the JNI environment of the call that uses it and the record of what
happened. The metadata blocks of the context are those of `env`; references, the path and the
encoder are modelled by whether they are set, with the encoder that the pointer leads to. -/
structure Machine (E : Type) where
  env : Native.Context
  path : Bool
  context : EncodeContext
  outputStream : Bool
  channels : ℕ
  hasEncoder : Bool
  encoder : E
  streamCalls : List StreamCall
  channelCalls : List ChannelCall
  history : List Event

/-- What can fail while an encoder is opened, besides the calls that `Faults` numbers: `GetJavaVM`,
`NewGlobalRef`, which may raise or not, `stream_encoder_new` and the `calloc` of a registry entry.
The last field is the object that `throw_unsupported_feature_exception` raises. -/
structure Platform where
  faults : Faults
  getJavaVM : Bool
  newGlobalRef : Build Unit
  streamEncoderNew : Bool
  registryEntry : Bool
  unsupportedFeatureException : String → Throwable

namespace Machine

variable {E : Type}

/-- Nothing has happened yet. -/
def empty (F : LibFlac E) : Machine E :=
  { env := Native.Context.empty, path := false, context := ⟨false, 0⟩, outputStream := false
    channels := 0, hasEncoder := false, encoder := F.new, streamCalls := [], channelCalls := []
    history := [] }

/-- Adds to the record. -/
def record (m : Machine E) (event : Event) : Machine E := { m with history := m.history ++ [event] }

/-- `ThrowNew`. -/
def throwNew (m : Machine E) (exception : Throwable) : Machine E :=
  { m with env := m.env.throwNew exception }

/-- Steps that can fail, up to the first that does. -/
def runSteps (faults : Faults) (steps : List Step) (m : Machine E) : Bool × Machine E :=
  let r := Native.runSteps faults steps m.env
  (r.1, { m with env := r.2 })

/-- A call on the `OutputStream`; `false` when it raised or, an exception being pending already, was
not executed. -/
def callStream (O : Objects) (call : StreamCall) (m : Machine E) : Bool × Machine E :=
  if m.env.pending.isSome then (false, m)
  else
    let m' := { m with streamCalls := m.streamCalls ++ [call] }
    match O.stream m.streamCalls call with
    | .ok () => (true, m')
    | .error exception => (false, m'.throwNew exception)

/-- The channel callbacks' view of the machine. -/
def channelState (m : Machine E) : State := ⟨m.env.pending, m.channelCalls⟩

/-- The machine after a channel callback. -/
def withChannelState (m : Machine E) (s : State) : Machine E :=
  { m with env := { m.env with pending := s.pending }, channelCalls := s.calls }

end Machine

variable {E : Type}

/-! ## Callbacks -/

/-- `encode_write_callback`; the flag is `WRITE_STATUS_OK`. -/
def encodeWriteCallback (O : Objects) (buffer : List UInt8) (m : Machine E) :
    Option Bool × Machine E :=
  if m.context.outputChannel then
    let r := encodeChannelWriteCallback O.channel m.context (buffer.length + 1) buffer m.channelState
    (r.1, m.withChannelState r.2)
  else if !m.outputStream then (some false, m)
  else if m.env.pending.isSome then (some false, m)
  else if intMax < buffer.length then
    (some false,
      m.throwNew (.flacEncodeException "Encoded FLAC chunk is too large for one JVM ByteArray."))
  else
    match m.callStream O (.newByteArray buffer.length) with
    | (false, m) => (some false, m)
    | (true, m) =>
      match
        if buffer = [] then (true, m) else m.callStream O (.setByteArrayRegion buffer.length) with
      | (false, m) => (some false, m)
      | (true, m) =>
        let r := m.callStream O (.write buffer)
        (some r.1, r.2)

/-- Dispatches a callback. -/
def handle (O : Objects) : (callback : ChannelCallback) → Machine E →
    ChannelReply callback × Machine E
  | .write buffer, m => encodeWriteCallback O buffer m
  | .read bytes, m =>
    let r := encodeChannelReadCallback O.channel m.context bytes m.channelState
    (r.1, m.withChannelState r.2)
  | .seek offset, m =>
    let r := encodeChannelSeekCallback O.channel m.context offset m.channelState
    (r.1, m.withChannelState r.2)
  | .tell, m =>
    let r := encodeChannelTellCallback O.channel m.context m.channelState
    (r.1, m.withChannelState r.2)

/-- A libFLAC call with its callbacks. -/
def Machine.perform (O : Objects) (activity : Activity E) (m : Machine E) : Bool × Machine E :=
  let r := activity.run (handle O) m
  (r.1.1, { r.2 with encoder := r.1.2 })

/-! ## Destroying a context -/

/-- `free(utf8_path)`. -/
def Machine.freePath (m : Machine E) : Machine E :=
  if m.path then { m with path := false }.record .freePath else m

/-- `stream_encoder_delete` for an encoder that was allocated. -/
def Machine.deleteEncoder (F : LibFlac E) (O : Objects) (m : Machine E) : Machine E :=
  if m.hasEncoder then
    { (m.perform O (F.delete m.encoder)).2 with hasEncoder := false }.record .delete
  else m

/-- `destroy_metadata_blocks`. -/
def Machine.destroyMetadataBlocks (m : Machine E) : Machine E :=
  { m with env := m.env.destroyMetadataBlocks }.record
    (.deleteBlocks m.env.metadataBlocks.reduceOption)

/-- `DeleteGlobalRef` for the stream. -/
def Machine.deleteStream (m : Machine E) : Machine E :=
  if m.outputStream then { m with outputStream := false }.record .deleteGlobalRef else m

/-- `DeleteGlobalRef` for the channel. -/
def Machine.deleteChannel (m : Machine E) : Machine E :=
  if m.context.outputChannel then
    { m with context := { m.context with outputChannel := false } }.record .deleteGlobalRef
  else m

/-- `destroy_encode_context`. -/
def destroyEncodeContext (F : LibFlac E) (O : Objects) (m : Machine E) : Machine E :=
  (m.deleteEncoder F O).destroyMetadataBlocks.deleteStream.deleteChannel.record .freeContext

/-! ## Opening -/

/-- `NativeEncodingRequest`; the arrays of metadata blocks are those of `metadata`. -/
structure NativeEncodingRequest where
  sampleRate : ℤ
  channels : ℤ
  bitsPerSample : ℤ
  totalSamplesEstimate : Option ℤ
  compressionLevel : ℤ
  verify : Bool
  streamableSubset : Bool
  blockSize : Option ℤ
  container : ℤ
  oggSerialNumber : Option ℤ
  metadata : FlacEncodingMetadata
  numThreads : ℤ

/-- How a failure is reported: nothing is added to what the JVM raised, an exception is raised, or
it is raised unless one is pending. -/
inductive Failure where
  | raised
  | throws (exception : Throwable)
  | throwsUnlessPending (exception : Throwable)

/-- Reports a failure. -/
def Machine.report (m : Machine E) : Failure → Machine E
  | .raised => m
  | .throws exception => m.throwNew exception
  | .throwsUnlessPending exception =>
    if m.env.pending.isSome then m else m.throwNew exception

/-- The next part of an open, after one that ended as `r`. -/
def andThen (r : Option Failure × Machine E) (f : Machine E → Option Failure × Machine E) :
    Option Failure × Machine E :=
  match r with
  | (none, m) => f m
  | (some failure, m) => (some failure, m)

/-- The conversion to `uint32_t`. -/
def toUint32 (value : ℤ) : ℕ := (value % 4294967296).toNat

/-- The conversion to `FLAC__uint64`. -/
def toUint64 (value : ℤ) : ℕ := (value % 18446744073709551616).toNat

/-- The methods of the request, as they are looked up. -/
def requestMethods : List String :=
  ["getSampleRate", "getChannels", "getBitsPerSample", "getTotalSamplesEstimate",
    "getCompressionLevel", "isVerify", "isStreamableSubset", "getBlockSize", "getNumThreads",
    "getContainer", "getOggSerialNumber"] ++ Native.requestGetters

/-- The methods of the request, as they are called. -/
def requestCalls : List String :=
  ["getSampleRate", "getChannels", "getBitsPerSample", "getCompressionLevel", "isVerify",
    "isStreamableSubset", "getNumThreads", "getContainer", "getTotalSamplesEstimate",
    "getBlockSize", "getOggSerialNumber"] ++ Native.requestGetters

/-- `validate_container`. -/
def validateContainer (container : ℤ) : Build Unit :=
  if container = 0 ∨ container = 1 then .ok ()
  else .error (some (.illegalArgumentException "FLAC container code must be native or Ogg."))

/-- The check of the serial number. -/
def validateOggSerialNumber (request : NativeEncodingRequest) : Build Unit :=
  if request.container ≠ 1 ∧ request.oggSerialNumber ≠ none then
    .error (some (.illegalArgumentException
      "Ogg serial number can only be set for Ogg FLAC encoding."))
  else .ok ()

/-- The steps that read the request before anything is allocated. -/
def readRequest (request : NativeEncodingRequest) : List Step :=
  methodIDs requestMethods ++ getters requestCalls ++
  [.check (validateContainer request.container), .check (validateOggSerialNumber request)] ++
  (if request.totalSamplesEstimate ≠ none then
    [.jni (.findClass "java/lang/Long"), .jni (.getMethodID "longValue")] else []) ++
  (if request.blockSize ≠ none ∨ request.oggSerialNumber ≠ none then
    [.jni (.findClass "java/lang/Integer"), .jni (.getMethodID "intValue")] else []) ++
  (if request.totalSamplesEstimate ≠ none then getters ["longValue"] else []) ++
  (if request.blockSize ≠ none then getters ["intValue"] else []) ++
  (if request.oggSerialNumber ≠ none then getters ["intValue"] else [])

/-- `GetJavaVM`, with the exception for a failure. -/
def Platform.javaVM (P : Platform) (message : String) : Build Unit :=
  if P.getJavaVM then .ok () else .error (some (.flacEncodeException message))

/-- The steps of `prepare_encode_output_stream`. -/
def streamSteps (P : Platform) : List Step :=
  methodIDs ["write", "flush"] ++
  [.check (P.javaVM "Failed to access JVM for stream encoder callbacks."), .check P.newGlobalRef]

/-- `prepare_encode_output_stream`. -/
def prepareEncodeOutputStream (P : Platform) (m : Machine E) : Option Failure × Machine E :=
  match m.runSteps P.faults (streamSteps P) with
  | (false, m) => (some .raised, m)
  | (true, m) => (none, { m with outputStream := true }.record .newGlobalRef)

/-- The steps of `prepare_encode_output_channel` up to the reference. -/
def channelSteps (P : Platform) : List Step :=
  [.jni (.findClass "java/nio/channels/ReadableByteChannel"),
    .jni (.findClass "java/nio/channels/WritableByteChannel"),
    .jni (.findClass "java/nio/channels/SeekableByteChannel")] ++
  methodIDs ["read", "write", "position", "position"] ++
  [.check (P.javaVM "Failed to access JVM for channel encoder callbacks."), .check P.newGlobalRef]

/-- The first half of `prepare_encode_output_channel`, up to the reference. -/
def referToChannel (P : Platform) (m : Machine E) : Option Failure × Machine E :=
  match m.runSteps P.faults (channelSteps P) with
  | (false, m) => (some .raised, m)
  | (true, m) => (none, { m with context := ⟨true, 0⟩ }.record .newGlobalRef)

/-- The second half of `prepare_encode_output_channel`: the base offset. -/
def captureBaseOffset (O : Objects) (m : Machine E) : Option Failure × Machine E :=
  match m.channelState.callChannel O.channel .position with
  | (none, s) => (some .raised, m.withChannelState s)
  | (some position, s) =>
    let m := { m.withChannelState s with context := ⟨true, position.value⟩ }
    if position.value < 0 then
      (some (.throws (.flacEncodeException "SeekableByteChannel returned a negative position.")), m)
    else (none, m)

/-- `prepare_encode_output_channel`. -/
def prepareEncodeOutputChannel (O : Objects) (P : Platform) (m : Machine E) :
    Option Failure × Machine E :=
  andThen (referToChannel P m) (captureBaseOffset O)

/-- The callback target, if there is one. -/
def prepareOutput (O : Objects) (P : Platform) : Output → Machine E → Option Failure × Machine E
  | .file, m => (none, m)
  | .outputStream, m => prepareEncodeOutputStream P m
  | .seekableChannel, m => prepareEncodeOutputChannel O P m

/-- `stream_encoder_new`. -/
def newEncoder (F : LibFlac E) (P : Platform) (m : Machine E) : Option Failure × Machine E :=
  if P.streamEncoderNew then (none, { m with hasEncoder := true, encoder := F.new }.record .new)
  else (some (.throws (.flacEncodeException "Failed to allocate FLAC encoder.")), m)

/-- What a thread status throws. -/
def threadFailure (P : Platform) : ThreadStatus → Option Failure
  | .ok => none
  | .notCompiledWithMultithreadingEnabled =>
    some (.throws (P.unsupportedFeatureException
      ("Parallel FLAC encoding is unavailable because the bundled " ++
        "libFLAC was built without pthread support.")))
  | .alreadyInitialized =>
    some (.throws (.flacEncodeException
      "FLAC encoder thread count was set after encoder initialisation."))
  | .tooManyThreads =>
    some (.throws (.illegalArgumentException "Encoder thread count must be between 1 and 128."))
  | .other =>
    some (.throws (.flacEncodeException
      "libFLAC returned an unknown encoder thread configuration status."))

/-- `stream_encoder_set_num_threads`, which is skipped for one thread. -/
def configureThreads (F : LibFlac E) (P : Platform) (numThreads : ℤ) (m : Machine E) :
    Option Failure × Machine E :=
  if numThreads = 1 then (none, m)
  else
    let r := F.setNumThreads (toUint32 numThreads) m.encoder
    (threadFailure P r.1, { m with encoder := r.2 }.record (.setNumThreads (toUint32 numThreads)))

/-- The settings of a request, in the order of the setter chain. -/
def NativeEncodingRequest.settings (request : NativeEncodingRequest) : List Setting :=
  [.verify request.verify, .streamableSubset request.streamableSubset,
    .channels (toUint32 request.channels), .bitsPerSample (toUint32 request.bitsPerSample),
    .sampleRate (toUint32 request.sampleRate),
    .compressionLevel (toUint32 request.compressionLevel)] ++
  (request.blockSize.map fun value => Setting.blocksize (toUint32 value)).toList ++
  (request.oggSerialNumber.map Setting.oggSerialNumber).toList ++
  (request.totalSamplesEstimate.map fun value =>
    Setting.totalSamplesEstimate (toUint64 value)).toList

/-- The setter chain, up to the first that returns false. -/
def applySettings (F : LibFlac E) : List Setting → Machine E → Bool × Machine E
  | [], m => (true, m)
  | setting :: settings, m =>
    let r := F.set setting m.encoder
    let m := { m with encoder := r.2 }.record (.set setting)
    if r.1 then applySettings F settings m else (false, m)

/-- `encoder_state_or_unknown`. -/
def encoderStateOrUnknown (F : LibFlac E) (m : Machine E) : String :=
  (F.getResolvedStateString m.encoder).getD "unknown encoder state"

/-- An exception text with the state of the encoder, in a message buffer. -/
def stateException (F : LibFlac E) (what : String) (m : Machine E) : Throwable :=
  .flacEncodeException (Decode.snprintf (what ++ ": " ++ encoderStateOrUnknown F m ++ "."))

/-- The setter chain with its failure. -/
def configure (F : LibFlac E) (request : NativeEncodingRequest) (m : Machine E) :
    Option Failure × Machine E :=
  match applySettings F request.settings m with
  | (true, m) => (none, m)
  | (false, m) => (some (.throws (stateException F "Failed to configure FLAC encoder" m)), m)

/-- The metadata blocks of the request. -/
def buildMetadata (lib : LibFlacMetadata) (P : Platform) (metadata : FlacEncodingMetadata)
    (m : Machine E) : Option Failure × Machine E :=
  match Native.buildRequest P.faults lib metadata m.env with
  | (false, env) =>
    (some (.throwsUnlessPending (.flacEncodeException "Failed to build FLAC metadata blocks.")),
      { m with env := env })
  | (true, env) => (none, { m with env := env })

/-- `stream_encoder_set_metadata`, if there is a block. -/
def attachMetadata (F : LibFlac E) (m : Machine E) : Option Failure × Machine E :=
  if m.env.metadataBlocks = [] then (none, m)
  else
    let blocks := m.env.metadataBlocks.map fun slot => slot.bind m.env.block
    let r := F.setMetadata blocks m.encoder
    let m := { m with encoder := r.2 }.record (.setMetadata m.env.metadataBlocks blocks)
    if r.1 then (none, m)
    else (some (.throws (stateException F "Failed to attach FLAC metadata blocks" m)), m)

/-- The `init` function of the output, after which the path is freed. -/
def initEncoder (F : LibFlac E) (O : Objects) (output : Output) (container : ℤ) (m : Machine E) :
    Option Failure × Machine E :=
  let r := m.perform O (F.init output container m.encoder)
  let m := (r.2.record (.init output container r.1)).freePath
  if r.1 then (none, m)
  else
    (some (.throwsUnlessPending
      (stateException F "Failed to initialize FLAC encoder output" m)), m)

/-- `open_encoder_internal` behind the allocation of the context. -/
def openContext (F : LibFlac E) (lib : LibFlacMetadata) (O : Objects) (P : Platform)
    (output : Output) (request : NativeEncodingRequest) (m : Machine E) :
    Option Failure × Machine E :=
  andThen (andThen (andThen (andThen (andThen (andThen
    (prepareOutput O P output m)
    (newEncoder F P))
    (configureThreads F P request.numThreads))
    (configure F request))
    (buildMetadata lib P request.metadata))
    (attachMetadata F))
    (initEncoder F O output request.container)

/-- The end of an open: a context that broke off is destroyed. -/
def concludeOpen (F : LibFlac E) (O : Objects) : Option Failure × Machine E → Bool × Machine E
  | (some failure, m) => (false, (destroyEncodeContext F O m).freePath.report failure)
  | (none, m) => (true, m)

/-- `open_encoder_internal` up to the registration; `given` says that there is an output. -/
def openEncoderInternal (F : LibFlac E) (lib : LibFlacMetadata) (O : Objects) (P : Platform)
    (output : Output) (given : Bool) (request : Option NativeEncodingRequest) (m : Machine E) :
    Bool × Machine E :=
  match given, request with
  | true, some request =>
    match m.runSteps P.faults (readRequest request) with
    | (false, m) => (false, m.freePath)
    | (true, m) =>
      match m.runSteps P.faults [.native .calloc true] with
      | (false, m) =>
        (false, m.freePath.throwNew (.flacEncodeException "Failed to allocate encoder context."))
      | (true, m) =>
        concludeOpen F O (openContext F lib O P output request
          ({ m with channels := toUint32 request.channels }.record .callocContext))
  | _, _ =>
    (false, m.freePath.throwNew
      (.illegalArgumentException "Encoder output and request must not be null."))

/-- `openEncoderFile` up to the registration. -/
def openFile (F : LibFlac E) (lib : LibFlacMetadata) (O : Objects) (P : Platform)
    (path : Option Text) (request : Option NativeEncodingRequest) (m : Machine E) :
    Bool × Machine E :=
  match path, request with
  | some path, some request =>
    match m.runSteps P.faults (jstringToUtf8 path) with
    | (false, m) =>
      (false, m.report (.throwsUnlessPending
        (.flacEncodeException "Failed to encode output file path to UTF-8.")))
    | (true, m) =>
      openEncoderInternal F lib O P .file true (some request)
        ({ m with path := true }.record .mallocPath)
  | _, _ =>
    (false,
      m.throwNew (.illegalArgumentException "Encoder path and request must not be null."))

/-! ## Writing and finishing -/

/-- `writeEncoderInterleaved` on an acquired context; `elements` says whether the samples can be
accessed. -/
def Machine.writeInterleaved (F : LibFlac E) (O : Objects) (samples : Option (List ℤ)) (frames : ℤ)
    (elements : Bool) (m : Machine E) : Machine E :=
  if frames < 0 then m.throwNew (.illegalArgumentException "Frame count must be non-negative.")
  else if frames = 0 then m
  else
    match samples with
    | none => m.throwNew (.illegalArgumentException "PCM sample buffer must not be null.")
    | some samples =>
      if (samples.length : ℤ) ≠ frames * m.channels then
        m.throwNew
          (.illegalArgumentException "Sample array length must equal frames * channels.")
      else if !elements then
        m.throwNew (.flacEncodeException "Failed to access PCM samples for encoding.")
      else
        let r := m.perform O (F.processInterleaved samples frames.toNat m.encoder)
        let m := r.2.record (.processInterleaved samples frames.toNat r.1)
        if r.1 || m.env.pending.isSome then m
        else m.throwNew (stateException F "FLAC encoding failed while processing PCM" m)

/-- `finishEncoder` on an acquired context, up to the release: the exception to raise afterwards
unless one is pending. -/
def Machine.finishStream (F : LibFlac E) (O : Objects) (m : Machine E) :
    Option Throwable × Machine E :=
  let r := m.perform O (F.finish m.encoder)
  let m := r.2.record (.finish r.1)
  if r.1 then (none, if m.outputStream then (m.callStream O .flush).2 else m)
  else (some (stateException F "Failed to finalize FLAC encoding" m), m)

end JFlac.Encode
