import JFlac.Decode.OneShot

/-!
# Reusable sessions and pull sessions

The native methods that work on a `DecodeSession`. Each takes the session as
`acquire_decode_session` hands it out; the registry itself is modelled with the handles. A native
method is entered with no exception pending, and leaves the one it raises pending.
-/

namespace JFlac.Decode

open Machine

variable {D : Type}

/-- A `DecodeSession`: its decoder and its context, in the machine of the thread using it. -/
structure Session (D : Type) where
  stream : Stream D
  machine : Machine

/-- How a callback-driven session method ended. -/
structure SessionOutcome (D : Type) where
  finished : Bool
  session : Session D

/-- Native code is entered from Java: nothing is pending. -/
def Machine.enter (m : Machine) : Machine := { m with pending := none }

/-- The context of a session before its decoder is initialised. -/
def openContext (pullMode : Bool) : DecodeContext :=
  { DecodeContext.zero with suppressMetadata := true, pullMode := pullMode }

/-! ## Opening -/

/-- `register_decode_session`, as far as it can fail: the registry entry is allocated. -/
def registerDecodeSession (J : Jvm) (failure : String) (s : Stream D) (m : Machine) :
    Option (Session D) × Machine :=
  if J.mallocFails m.history then (none, m.throwDecode failure) else (some ⟨s, m⟩, m)

/-- `openDecoderFile`. No Java code runs while the metadata is read. -/
def openDecoderFile (F : LibFlac D) (J : Jvm) (path : Bool) (container : ℤ) :
    Option (Session D) × Machine :=
  let m := Machine.start
  if !isValidContainer container then (none, m.throwIllegalArgument containerMessage)
  else if !path then (none, m.throwIllegalArgument "Decoder path must not be null.")
  else
    let utf8Path := jstringToUtf8 J m
    let m := utf8Path.2
    if !utf8Path.1 then
      (none,
        if !m.exceptionCheck then m.throwDecode "Failed to encode file path to UTF-8." else m)
    else if J.mallocFails m.history then
      (none, m.throwDecode "Failed to allocate FLAC decoder session.")
    else
      match F.new with
      | none => (none, m.throwDecode "Failed to allocate FLAC decoder.")
      | some decoder =>
        let m := m.withContext (openContext false)
        match F.init .file container decoder with
        | none => (none, m.throwDecode "Failed to initialize FLAC decoder.")
        | some decoder =>
          let metadata :=
            F.call J .processUntilEndOfMetadata (F.processUntilEndOfMetadata decoder) [] m
          let s := metadata.2.1
          let m := metadata.2.2
          if !metadata.1 || m.context.sawError then
            (none,
              m.report (failureMessage "FLAC decoder session failed while reading metadata"
                (F.getResolvedStateString s.decoder) m.context))
          else registerDecodeSession J "Failed to register FLAC decoder session." s m

/-- The metadata pass of a session over a source that may run Java code. -/
def readSessionMetadata (F : LibFlac D) (J : Jvm) (failure : String) (decoder : D)
    (calls : List TransportCall) (m : Machine) : Option (Stream D) × Machine :=
  let metadata :=
    F.call J .processUntilEndOfMetadata (F.processUntilEndOfMetadata decoder) calls m
  let s := metadata.2.1
  let m := metadata.2.2
  if m.exceptionCheck then (none, m)
  else if !metadata.1 || m.context.sawError then
    (none, m.report (failureMessage failure (F.getResolvedStateString s.decoder) m.context))
  else (some s, m)

/-- `openDecoderChannel`. -/
def openDecoderChannel (F : LibFlac D) (J : Jvm) (channel : Bool) (container : ℤ) :
    Option (Session D) × Machine :=
  let m := Machine.start
  if !isValidContainer container then (none, m.throwIllegalArgument containerMessage)
  else if !channel then (none, m.throwIllegalArgument "Decoder seekable channel must not be null.")
  else if J.mallocFails m.history then
    (none, m.throwDecode "Failed to allocate FLAC decoder session.")
  else
    match F.new with
    | none => (none, m.throwDecode "Failed to allocate FLAC decoder.")
    | some decoder =>
      match prepareDecodeSeekableChannel J (m.withContext (openContext false)) [] with
      | (false, m, _) => (none, m)
      | (true, m, calls) =>
        match F.init .seekableChannel container decoder with
        | none => (none, m.throwDecode "Failed to initialize FLAC channel decoder.")
        | some decoder =>
          match readSessionMetadata F J "FLAC channel decoder session failed while reading metadata"
            decoder calls m with
          | (none, m) => (none, m)
          | (some s, m) =>
            registerDecodeSession J "Failed to register FLAC channel decoder session." s m

/-! ## Callback-driven decoding -/

/-- The context without the local reference to the consumer. -/
def DecodeContext.dropConsumer (c : DecodeContext) : DecodeContext := { c with consumer := false }

/-- The prepared context of a session method: Kotlin has STREAMINFO since the session was opened. -/
def DecodeContext.sessionPrepared (c : DecodeContext) : DecodeContext :=
  { c with suppressMetadata := true }

/-- The context of a decode from an offset. -/
def DecodeContext.startAt (c : DecodeContext) (firstSample : ℤ) : DecodeContext :=
  { c with firstSample := firstSample.toNat }

/-- Reports a failed seek or a failed processing loop. -/
def throwSessionFailure (F : LibFlac D) (failure : String) (s : Stream D) (m : Machine) :
    Machine :=
  (m.withContext m.context.dropConsumer).report
    (failureMessage failure (F.getResolvedStateString s.decoder) m.context)

/-- The last lines of a session method: `onComplete` unless something failed, and the reference to
the consumer is dropped. -/
def completeSession (J : Jvm) (success : Bool) (m : Machine) : Machine :=
  let m := if !m.exceptionCheck && success then m.callJava J .onComplete else m
  m.withContext m.context.dropConsumer

/-- The part the two session methods share: seek, process, complete. A pending exception does not
stop the seek from being followed by the processing loop. Only `decodeDecoderFrom` looks at
`saw_error` again after the loop. -/
def seekAndProcessSession (F : LibFlac D) (J : Jvm) (fuel : ℕ) (firstSample : ℤ)
    (recheckError : Bool) (s : Stream D) (m : Machine) : SessionOutcome D :=
  let seek := F.call J .seekAbsolute (F.seekAbsolute s.decoder firstSample.toNat) s.transportCalls m
  let s := seek.2.1
  let m := seek.2.2
  if !m.exceptionCheck && (!seek.1 || m.context.sawError) then
    ⟨true, ⟨s, throwSessionFailure F "FLAC decoder session failed while seeking" s m⟩⟩
  else
    match processDecodeStream F J fuel s m with
    | (none, s, m) => ⟨false, ⟨s, m⟩⟩
    | (some success, s, m) =>
      if !m.exceptionCheck && (!success || (recheckError && m.context.sawError)) then
        ⟨true, ⟨s, throwSessionFailure F "FLAC decoder session failed" s m⟩⟩
      else ⟨true, ⟨s, completeSession J success m⟩⟩

/-- The exception text for a handle of the other kind. -/
def pullHandleMessage : String :=
  "A pull decoder handle cannot be used for callback-driven decoding."

/-- `decodeDecoderFrom`. -/
def decodeDecoderFrom (F : LibFlac D) (J : Jvm) (fuel : ℕ) (firstSample : ℤ) (consumer : Bool)
    (session : Session D) : SessionOutcome D :=
  let s := session.stream
  let m := session.machine.enter
  if m.context.pullMode then ⟨true, ⟨s, m.throwIllegalState pullHandleMessage⟩⟩
  else if firstSample < 0 then
    ⟨true, ⟨s, m.throwIllegalArgument "First sample must be non-negative."⟩⟩
  else if !consumer then ⟨true, ⟨s, m.throwIllegalArgument "Decoder consumer must not be null."⟩⟩
  else
    let prepared := prepareDecodeContext J m
    let m := prepared.2
    if !prepared.1 then ⟨true, ⟨s, m⟩⟩
    else
      seekAndProcessSession F J fuel firstSample true s
        (m.withContext (m.context.sessionPrepared.startAt firstSample))

/-- `decodeDecoderRange`. -/
def decodeDecoderRange (F : LibFlac D) (J : Jvm) (fuel : ℕ) (firstSample maxFrames : ℤ)
    (consumer : Bool) (session : Session D) : SessionOutcome D :=
  let s := session.stream
  let m := session.machine.enter
  if m.context.pullMode then ⟨true, ⟨s, m.throwIllegalState pullHandleMessage⟩⟩
  else
    match validateDecodeRequest firstSample true maxFrames with
    | some message => ⟨true, ⟨s, m.throwIllegalArgument message⟩⟩
    | none =>
      if !consumer then
        ⟨true, ⟨s, m.throwIllegalArgument "Decoder consumer must not be null."⟩⟩
      else
        let prepared := prepareDecodeContext J m
        let m := prepared.2
        if !prepared.1 then ⟨true, ⟨s, m⟩⟩
        else
          let m := m.withContext
            (m.context.sessionPrepared.configureDecodeRange firstSample true maxFrames)
          if m.context.rangeStartsAfterStream firstSample then
            ⟨true, ⟨s,
              (m.withContext m.context.dropConsumer).throwDecode
                rangeAfterStreamMessage⟩⟩
          else if m.context.rangeComplete || m.context.rangeStartsAtStreamEnd firstSample then
            -- an empty range leaves the decoder where it is
            ⟨true, ⟨s, completeSession J true m⟩⟩
          else seekAndProcessSession F J fuel firstSample false s m

/-! ## Pull sessions -/

/-- The opening of a pull session over its source: the transport is set up between the allocation
of the decoder and its initialisation. -/
def preparePullTransport (J : Jvm) (transport : Transport) (m : Machine) :
    Bool × Machine × List TransportCall :=
  match transport with
  | .file => (true, m, [])
  | .inputStream =>
    -- `prepare_decode_input_stream_global`
    let stream := prepareDecodeInputStream J m
    if !stream.1 then (false, stream.2, [])
    else
      let reference := stream.2.callJavaObject J .newGlobalRef
      let m := reference.2
      let source := { m.context.source with inputStreamIsGlobal := true }
      if !reference.1 then (false, m, [])
      else (true, m.withContext { m.context with source := source }, [])
  | .seekableChannel => prepareDecodeSeekableChannel J m []

/-- `open_pull_decoder_internal`. -/
def openPullDecoderInternal (F : LibFlac D) (J : Jvm) (transport : Transport) (container : ℤ)
    (m : Machine) : Option (Session D) × Machine :=
  if J.mallocFails m.history then
    (none, m.throwDecode "Failed to allocate FLAC pull decoder session.")
  else
    match F.new with
    | none => (none, m.throwDecode "Failed to allocate FLAC pull decoder.")
    | some decoder =>
      match preparePullTransport J transport (m.withContext (openContext true)) with
      | (false, m, _) => (none, m)
      | (true, m, calls) =>
        match F.init transport container decoder with
        | none => (none, m.throwDecode "Failed to initialize FLAC pull decoder.")
        | some decoder =>
          match readSessionMetadata F J "FLAC pull decoder failed while reading metadata"
            decoder calls m with
          | (none, m) => (none, m)
          | (some s, m) =>
            if !m.context.sawStreamInfo then
              (none, m.throwDecode "FLAC pull decoder did not receive STREAMINFO.")
            else
              match registerDecodeSession J "Failed to register FLAC pull decoder session." s m with
              | (none, m) => (none, m)
              | (some session, m) =>
                -- without a result object the new handle is removed again
                let result := m.callJavaObject J (.newPullDecoderOpenResult m.context.streamInfo)
                if result.1 then (some { session with machine := result.2 }, result.2)
                else (none, result.2)

/-- `openPullDecoderFile`, `openPullDecoderStream` and `openPullDecoderChannel`; `source` says
whether the path, stream or channel is set. -/
def openPullDecoder (F : LibFlac D) (J : Jvm) (transport : Transport) (source : Bool)
    (container : ℤ) : Option (Session D) × Machine :=
  let m := Machine.start
  if !isValidContainer container then (none, m.throwIllegalArgument containerMessage)
  else if !source then
    (none, m.throwIllegalArgument (match transport with
      | .file => "Decoder path must not be null."
      | .inputStream => "Decoder input stream must not be null."
      | .seekableChannel => "Decoder seekable channel must not be null."))
  else
    match transport with
    | .file =>
      let utf8Path := jstringToUtf8 J m
      if !utf8Path.1 then
        (none,
          if !utf8Path.2.exceptionCheck then
            utf8Path.2.throwDecode "Failed to encode file path to UTF-8."
          else utf8Path.2)
      else openPullDecoderInternal F J .file container utf8Path.2
    | transport => openPullDecoderInternal F J transport container m

/-- The context when libFLAC has no further block. -/
def DecodeContext.endPull (c : DecodeContext) : DecodeContext := { c with pullEndOfStream := true }

/-- The context without the local reference to the caller's array. -/
def DecodeContext.dropOutput (c : DecodeContext) : DecodeContext := { c with pullOutput := none }

/-- The loop of `readPullDecoderInterleaved`: `some true` when it was left normally, `some false`
when the read returns zero with an exception pending. -/
def pullLoop (F : LibFlac D) (J : Jvm) : ℕ → Stream D → Machine → Option Bool × Stream D × Machine
  | 0, s, m => (none, s, m)
  | fuel + 1, s, m =>
    if m.context.pullWrittenFrames < m.context.pullRequestedFrames ∧
        m.context.pullEndOfStream = false then
      let single := F.call J .processSingle (F.processSingle s.decoder) s.transportCalls m
      let s := single.2.1
      let m := single.2.2
      if m.exceptionCheck then (some false, s, m)
      else if !single.1 || m.context.sawError then
        (some false, s,
          m.report (failureMessage "FLAC pull decoder failed"
            (F.getResolvedStateString s.decoder) m.context))
      else
        match F.getState s.decoder with
        | .endOfStream =>
          let count := validatePhysicalEofSampleCount m
          if !count.1 then (some false, s, count.2)
          else
            (some true, s, count.2.withContext count.2.context.endPull)
        | .aborted =>
          (some false, s,
            m.report (snprintf ("FLAC pull decoder aborted" ++
              stateText (F.getResolvedStateString s.decoder) ++ ".")))
        | _ => pullLoop F J fuel s m
    else (some true, s, m)

/-- What a pull read returns: the `jint` (`none` while its loop is still running), the contents of
the caller's array and the session. -/
structure PullRead (D : Type) where
  value : Option ℤ
  samples : List Sample
  session : Session D

/-- The exception text for a buffer that cannot hold the request. -/
def pullBufferMessage : String := "Interleaved sample buffer must fit maxFrames * channels."

/-- The context at the start of a pull read. -/
def DecodeContext.startPull (c : DecodeContext) (samples : List Sample) (maxFrames : ℕ) :
    DecodeContext :=
  { c with
    sawError := false
    pullOutput := some samples
    pullOutputCapacitySamples := samples.length
    pullChannels := c.streamInfo.channels
    pullRequestedFrames := maxFrames
    pullWrittenFrames := 0 }

/-- The end of a pull read: the array goes back to Java, the reference to it is dropped. -/
def finishPull (value : Option ℤ) (samples : List Sample) (s : Stream D) (m : Machine) :
    PullRead D :=
  { value := value
    samples := m.context.pullOutput.getD samples
    session := ⟨s, m.withContext m.context.dropOutput⟩ }

/-- `readPullDecoderInterleaved`, for an array that is not `NULL`. -/
def readPullDecoderInterleaved (F : LibFlac D) (J : Jvm) (fuel : ℕ) (samples : List Sample)
    (maxFrames : ℤ) (session : Session D) : PullRead D :=
  let s := session.stream
  let m := session.machine.enter
  let c := m.context
  if maxFrames < 0 then
    ⟨some 0, samples, s, m.throwIllegalArgument "Max frames must be non-negative."⟩
  else if maxFrames = 0 then ⟨some 0, samples, s, m⟩
  else if !c.pullMode || !c.sawStreamInfo then
    ⟨some 0, samples, s,
      m.throwIllegalState "The native FLAC decoder handle is not a pull decoder."⟩
  else if c.streamInfo.channels = 0 ∨ intMax < maxFrames.toNat * c.streamInfo.channels ∨
      samples.length < maxFrames.toNat * c.streamInfo.channels then
    ⟨some 0, samples, s, m.throwIllegalArgument pullBufferMessage⟩
  else
    let drained := drainDecodePullPending (m.withContext (c.startPull samples maxFrames.toNat))
    if !drained.1 then finishPull (some 0) samples s drained.2
    else
      match pullLoop F J fuel s drained.2 with
      | (none, s, m) => finishPull none samples s m
      | (some false, s, m) => finishPull (some 0) samples s m
      | (some true, s, m) =>
        finishPull
          (some
            (if 0 < m.context.pullWrittenFrames then (m.context.pullWrittenFrames : ℤ)
            else if m.context.pullEndOfStream then -1
            else 0))
          samples s m

end JFlac.Decode
