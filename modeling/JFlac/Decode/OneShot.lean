import JFlac.Decode.Process

/-!
# One-shot decoding

`decode_file_internal`, `decode_stream_internal` and `decode_channel_internal` are one body with
different sources and texts. The model starts after `flac_api_ready`: the native library is
loaded. The temporary decoder is deleted and the context discarded when the call returns.
-/

namespace JFlac.Decode

open Machine

variable {D : Type}

/-- The arguments of a one-shot decode besides its source and consumer. -/
structure DecodeRequest where
  container : ℤ
  checkMd5 : Bool
  decodeChainedOgg : Bool
  firstSample : ℤ
  maxFrames : ℤ
  seekBeforeDecode : Bool
  rangeLimited : Bool
  deriving DecidableEq, Repr

/-- A whole-stream request. -/
def DecodeRequest.whole (container : ℤ) (checkMd5 decodeChainedOgg : Bool) : DecodeRequest :=
  { container := container, checkMd5 := checkMd5, decodeChainedOgg := decodeChainedOgg
    firstSample := 0, maxFrames := 0, seekBeforeDecode := false, rangeLimited := false }

/-- A request from an offset to the end. -/
def DecodeRequest.from (container firstSample : ℤ) : DecodeRequest :=
  { container := container, checkMd5 := false, decodeChainedOgg := false
    firstSample := firstSample, maxFrames := 0, seekBeforeDecode := true, rangeLimited := false }

/-- A bounded request. -/
def DecodeRequest.range (container firstSample maxFrames : ℤ) : DecodeRequest :=
  { container := container, checkMd5 := false, decodeChainedOgg := false
    firstSample := firstSample, maxFrames := maxFrames, seekBeforeDecode := true
    rangeLimited := true }

/-- How a native call ended: `finished` is false when a processing loop is still running. -/
structure Outcome where
  finished : Bool
  machine : Machine

/-- A JNI environment at the start of a native call. -/
def Machine.start : Machine := { context := DecodeContext.zero, pending := none, history := [] }

/-- `JFLAC_CONTAINER_NATIVE`. -/
def containerNative : ℤ := 0

/-- `JFLAC_CONTAINER_OGG`. -/
def containerOgg : ℤ := 1

/-- `is_valid_container`. -/
def isValidContainer (container : ℤ) : Bool :=
  container == containerNative || container == containerOgg

/-- The word that tells the texts of the three sources apart. -/
def Transport.label : Transport → String
  | .file => ""
  | .inputStream => "stream "
  | .seekableChannel => "channel "

/-! ## Opening the source -/

/-- `jstring_to_utf8`: Java encodes the path, then a buffer is allocated for the bytes. -/
def jstringToUtf8 (J : Jvm) (m : Machine) : Bool × Machine :=
  let bytes := m.callJavaObject J .encodePath
  (bytes.1 && !J.mallocFails bytes.2.history, bytes.2)

/-- `prepare_decode_input_stream`, for a stream that is not `NULL`. -/
def prepareDecodeInputStream (J : Jvm) (m : Machine) : Bool × Machine :=
  let inputClass := m.callJavaObject J .getObjectClass
  if !inputClass.1 then (false, inputClass.2)
  else
    let m := inputClass.2
    let source := { m.context.source with inputStream := true }
    (m.withContext { m.context with source := source }).callJavaObject J (.getMethodID "read")

/-- `prepare_decode_seekable_channel`, for a channel that is not `NULL`. -/
def prepareDecodeSeekableChannel (J : Jvm) (m : Machine) (calls : List TransportCall) :
    Bool × Machine × List TransportCall :=
  let classes := m.resolve J
    [.findClass "java/nio/channels/ReadableByteChannel",
      .findClass "java/nio/channels/SeekableByteChannel"]
  if !classes.1 then (false, classes.2, calls)
  else
    let methods := classes.2.resolve J
      [.getMethodID "read", .getMethodID "position", .getMethodID "position", .getMethodID "size"]
    if !methods.1 then (false, methods.2, calls)
    else
      let channel := methods.2.callJavaObject J .newGlobalRef
      if !channel.1 then (false, channel.2, calls)
      else
        match channel.2.callTransport J .position calls with
        | (none, m, calls) => (false, m, calls)
        | (some position, m, calls) =>
          let source := { m.context.source with channelBaseOffset := position.value }
          if position.value < 0 then
            (false,
              (m.withContext { m.context with source := source }).throwDecode
                "SeekableByteChannel returned a negative position.",
              calls)
          else
            let source := { source with seekableChannel := true }
            (true, m.withContext { m.context with source := source }, calls)

/-- `configure_decoder_chaining`. -/
def configureDecoderChaining (F : LibFlac D) (container : ℤ) (decodeChainedOgg : Bool)
    (decoder : D) (m : Machine) : Option D × Machine :=
  if !decodeChainedOgg then (some decoder, m)
  else if container ≠ containerOgg then
    (none, m.throwIllegalArgument "Chained decoding requires an Ogg FLAC source.")
  else
    match F.setDecodeChainedStream decoder with
    | some decoder => (some decoder, m)
    | none =>
      (none,
        m.throwDecode "Failed to enable chained Ogg FLAC decoding before decoder initialisation.")

/-- `configure_decoder_md5_checking`. -/
def configureDecoderMd5Checking (F : LibFlac D) (checkMd5 : Bool) (decoder : D) (m : Machine) :
    Option D × Machine :=
  if !checkMd5 then (some decoder, m)
  else
    match F.setMd5Checking decoder with
    | some decoder => (some decoder, m)
    | none =>
      (none, m.throwDecode "Failed to enable FLAC MD5 checking before decoder initialisation.")

/-! ## The common body -/

/-- `copy_resolved_decoder_state`, with the empty buffer read as no state. -/
def copyResolvedDecoderState (state : Option String) : Option String :=
  match state with
  | none => none
  | some text => if snprintf text = "" then none else some (snprintf text)

/-- The exception text when the PCM of an inner link does not match its signature. -/
def linkMd5Message : String :=
  "FLAC MD5 verification failed in a non-final chained Ogg link: decoded PCM does not match the " ++
    "STREAMINFO signature."

/-- The exception text when the PCM does not match the signature. -/
def md5Message : String :=
  "FLAC MD5 verification failed: decoded PCM does not match the STREAMINFO signature."

/-- A throw gated by `ExceptionCheck`, so that an exception raised by Java is never replaced. -/
def Machine.reportIf (condition : Bool) (message : String) (m : Machine) : Machine :=
  if !m.exceptionCheck && condition then m.report message else m

/-- The exceptions a one-shot decode may raise after `finish`, in the order of the source. -/
def reportFailure (what : String) (checkMd5 success finished : Bool) (state : Option String)
    (m : Machine) : Machine :=
  let m := m.reportIf (m.context.chainedLinkMd5Failed && checkMd5) linkMd5Message
  let m := m.reportIf (!success) (failureMessage (what ++ " failed") state m.context)
  let m := m.reportIf (success && !finished && checkMd5) md5Message
  m.reportIf (success && !finished)
    (snprintf (what ++ " failed while finishing" ++ stateText state ++ "."))

/-- The end of a one-shot decode: finishes the decoder, then reports a failure or completes. -/
def finishDecode (F : LibFlac D) (J : Jvm) (what : String) (checkMd5 success : Bool) (s : Stream D)
    (m : Machine) : Machine :=
  let state := copyResolvedDecoderState (F.getResolvedStateString s.decoder)
  let finish := F.callFinish s m
  let m := reportFailure what checkMd5 success finish.1 state finish.2
  if !m.exceptionCheck && success && finish.1 then m.callJava J .onComplete else m

/-- Processing and finishing. -/
def processAndFinish (F : LibFlac D) (J : Jvm) (fuel : ℕ) (what : String) (checkMd5 : Bool)
    (s : Stream D) (m : Machine) : Outcome :=
  match processDecodeStream F J fuel s m with
  | (none, _, m) => ⟨false, m⟩
  | (some success, s, m) => ⟨true, finishDecode F J what checkMd5 success s m⟩

/-- The exception text of a range past the end. -/
def rangeAfterStreamMessage : String :=
  "Requested decode range starts after the end of the FLAC stream."

/-- Finishes an operation that failed while reading metadata or seeking. -/
def abandonDecode (F : LibFlac D) (failure : String) (s : Stream D) (m : Machine) : Outcome :=
  let m := m.reportIf true
    (failureMessage failure (F.getResolvedStateString s.decoder) m.context)
  ⟨true, (F.callFinish s m).2⟩

/-- The seek of a one-shot decode: after the metadata the decoder is at sample zero. -/
def seekToFirstSample (F : LibFlac D) (J : Jvm) (firstSample : ℤ) (s : Stream D) (m : Machine) :
    Bool × Stream D × Machine :=
  if firstSample = 0 then (true, s, m)
  else F.call J .seekAbsolute (F.seekAbsolute s.decoder firstSample.toNat) s.transportCalls m

/-- The seek of a one-shot decode, then processing. -/
def seekAndProcess (F : LibFlac D) (J : Jvm) (fuel : ℕ) (what : String) (request : DecodeRequest)
    (s : Stream D) (m : Machine) : Outcome :=
  let seek := seekToFirstSample F J request.firstSample s m
  let s := seek.2.1
  let m := seek.2.2
  if m.exceptionCheck || !seek.1 || m.context.sawError then
    abandonDecode F (what ++ " failed while seeking") s m
  else processAndFinish F J fuel what request.checkMd5 s m

/-- The end of an empty range, which completes without seeking. -/
def completeEmptyRange (F : LibFlac D) (J : Jvm) (s : Stream D) (m : Machine) : Outcome :=
  let finish := F.callFinish s m
  ⟨true,
    if !finish.2.exceptionCheck && finish.1 then finish.2.callJava J .onComplete else finish.2⟩

/-- A one-shot decode from the initialised decoder on. -/
def decodeInitialised (F : LibFlac D) (J : Jvm) (fuel : ℕ) (what : String)
    (request : DecodeRequest) (s : Stream D) (m : Machine) : Outcome :=
  if request.seekBeforeDecode || request.rangeLimited then
    let metadata :=
      F.call J .processUntilEndOfMetadata (F.processUntilEndOfMetadata s.decoder)
        s.transportCalls m
    let s := metadata.2.1
    let m := metadata.2.2
    if m.exceptionCheck || !metadata.1 || m.context.sawError then
      abandonDecode F (what ++ " failed while reading metadata") s m
    else if m.context.rangeStartsAfterStream request.firstSample then
      ⟨true, (F.callFinish s m).2.throwDecode rangeAfterStreamMessage⟩
    else if m.context.rangeComplete || m.context.rangeStartsAtStreamEnd request.firstSample then
      completeEmptyRange F J s m
    else seekAndProcess F J fuel what request s m
  else processAndFinish F J fuel what request.checkMd5 s m

/-- A one-shot decode from the prepared context on: range setup and decoder initialisation. -/
def decodePrepared (F : LibFlac D) (J : Jvm) (fuel : ℕ) (transport : Transport)
    (request : DecodeRequest) (calls : List TransportCall) (m : Machine) : Outcome :=
  let m := m.withContext
    (m.context.configureDecodeRange request.firstSample request.rangeLimited request.maxFrames)
  match F.new with
  | none => ⟨true, m.throwDecode ("Failed to allocate FLAC " ++ transport.label ++ "decoder.")⟩
  | some decoder =>
    match configureDecoderChaining F request.container request.decodeChainedOgg decoder m with
    | (none, m) => ⟨true, m⟩
    | (some decoder, m) =>
      match configureDecoderMd5Checking F request.checkMd5 decoder m with
      | (none, m) => ⟨true, m⟩
      | (some decoder, m) =>
        match F.init transport request.container decoder with
        | none =>
          ⟨true, m.throwDecode ("Failed to initialize FLAC " ++ transport.label ++ "decoder.")⟩
        | some decoder =>
          decodeInitialised F J fuel ("FLAC " ++ transport.label ++ "decoding") request
            ⟨decoder, calls⟩ m

/-- The argument checks that do not depend on the source. -/
def rejectRequest (request : DecodeRequest) : Option String :=
  let seeks := request.seekBeforeDecode || request.rangeLimited
  match
    if seeks then
      validateDecodeRequest request.firstSample request.rangeLimited request.maxFrames
    else none with
  | some message => some message
  | none =>
    if request.decodeChainedOgg && seeks then
      some "Chained Ogg decoding is only available for whole-stream decode."
    else none

/-- The zeroed context of a one-shot decode. -/
def oneShotContext (request : DecodeRequest) : DecodeContext :=
  { DecodeContext.zero with decodeChainedOgg := request.decodeChainedOgg }

/-- The exception text for an unknown container code. -/
def containerMessage : String := "FLAC container code must be native or Ogg."

/-- `decode_file_internal`; `path` and `consumer` say whether the references are set. -/
def decodeFileInternal (F : LibFlac D) (J : Jvm) (fuel : ℕ) (path consumer : Bool)
    (request : DecodeRequest) : Outcome :=
  let m := Machine.start
  if !isValidContainer request.container then ⟨true, m.throwIllegalArgument containerMessage⟩
  else if !path || !consumer then
    ⟨true, m.throwIllegalArgument "Decoder path and consumer must not be null."⟩
  else
    match rejectRequest request with
    | some message => ⟨true, m.throwIllegalArgument message⟩
    | none =>
      let utf8Path := jstringToUtf8 J m
      if !utf8Path.1 then
        ⟨true,
          if !utf8Path.2.exceptionCheck then
            utf8Path.2.throwDecode "Failed to encode file path to UTF-8."
          else utf8Path.2⟩
      else
        let context := prepareDecodeContext J (utf8Path.2.withContext (oneShotContext request))
        if !context.1 then ⟨true, context.2⟩
        else decodePrepared F J fuel .file request [] context.2

/-- `decode_channel_internal`. -/
def decodeChannelInternal (F : LibFlac D) (J : Jvm) (fuel : ℕ) (channel consumer : Bool)
    (request : DecodeRequest) : Outcome :=
  let m := Machine.start
  if !isValidContainer request.container then ⟨true, m.throwIllegalArgument containerMessage⟩
  else if !channel || !consumer then
    ⟨true, m.throwIllegalArgument "Decoder seekable channel and consumer must not be null."⟩
  else
    match rejectRequest request with
    | some message => ⟨true, m.throwIllegalArgument message⟩
    | none =>
      let context := prepareDecodeContext J (m.withContext (oneShotContext request))
      if !context.1 then ⟨true, context.2⟩
      else
        match prepareDecodeSeekableChannel J context.2 [] with
        | (false, m, _) => ⟨true, m⟩
        | (true, m, calls) => decodePrepared F J fuel .seekableChannel request calls m

/-- `decode_stream_internal`, whose context keeps the zeroed range fields. -/
def decodeStreamInternal (F : LibFlac D) (J : Jvm) (fuel : ℕ) (inputStream consumer : Bool)
    (container : ℤ) (checkMd5 decodeChainedOgg : Bool) : Outcome :=
  let m := Machine.start
  let request := DecodeRequest.whole container checkMd5 decodeChainedOgg
  if !isValidContainer container then ⟨true, m.throwIllegalArgument containerMessage⟩
  else if !inputStream || !consumer then
    ⟨true, m.throwIllegalArgument "Decoder input stream and consumer must not be null."⟩
  else
    let context := prepareDecodeContext J (m.withContext (oneShotContext request))
    if !context.1 then ⟨true, context.2⟩
    else
      let stream := prepareDecodeInputStream J context.2
      if !stream.1 then ⟨true, stream.2⟩
      else decodePrepared F J fuel .inputStream request [] stream.2

/-! ## The JNI entry points -/

/-- `NativeBindings.decodeFile`. -/
def decodeFile (F : LibFlac D) (J : Jvm) (fuel : ℕ) (path consumer : Bool) (container : ℤ)
    (checkMd5 decodeChainedOgg : Bool) : Outcome :=
  decodeFileInternal F J fuel path consumer (.whole container checkMd5 decodeChainedOgg)

/-- `NativeBindings.decodeStream`. -/
def decodeStream (F : LibFlac D) (J : Jvm) (fuel : ℕ) (inputStream consumer : Bool)
    (container : ℤ) (checkMd5 decodeChainedOgg : Bool) : Outcome :=
  decodeStreamInternal F J fuel inputStream consumer container checkMd5 decodeChainedOgg

/-- `NativeBindings.decodeChannel`. -/
def decodeChannel (F : LibFlac D) (J : Jvm) (fuel : ℕ) (channel consumer : Bool) (container : ℤ)
    (checkMd5 decodeChainedOgg : Bool) : Outcome :=
  decodeChannelInternal F J fuel channel consumer (.whole container checkMd5 decodeChainedOgg)

/-- `NativeBindings.decodeFileFrom`. -/
def decodeFileFrom (F : LibFlac D) (J : Jvm) (fuel : ℕ) (path consumer : Bool)
    (container firstSample : ℤ) : Outcome :=
  decodeFileInternal F J fuel path consumer (.from container firstSample)

/-- `NativeBindings.decodeChannelFrom`. -/
def decodeChannelFrom (F : LibFlac D) (J : Jvm) (fuel : ℕ) (channel consumer : Bool)
    (container firstSample : ℤ) : Outcome :=
  decodeChannelInternal F J fuel channel consumer (.from container firstSample)

/-- `NativeBindings.decodeFileRange`. -/
def decodeFileRange (F : LibFlac D) (J : Jvm) (fuel : ℕ) (path consumer : Bool)
    (container firstSample maxFrames : ℤ) : Outcome :=
  decodeFileInternal F J fuel path consumer (.range container firstSample maxFrames)

/-- `NativeBindings.decodeChannelRange`. -/
def decodeChannelRange (F : LibFlac D) (J : Jvm) (fuel : ℕ) (channel consumer : Bool)
    (container firstSample maxFrames : ℤ) : Outcome :=
  decodeChannelInternal F J fuel channel consumer (.range container firstSample maxFrames)

end JFlac.Decode
