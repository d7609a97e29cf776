import JFlac.Decode.Callbacks

/-!
# Decode requests and the processing loops

The setup of a `DecodeContext` for one operation, the frame-count checks, and
`process_decode_stream`. The loops that the source writes without a bound take the number of
rounds they may still make; a loop that runs out of rounds is still running, and its result is
`none`.
-/

namespace JFlac.Decode

open Machine

variable {D : Type}

/-! ## Setting up an operation -/

/-- The fields `prepare_decode_context` resets. -/
def DecodeContext.prepared (c : DecodeContext) : DecodeContext :=
  { c with
    consumer := true
    sawError := false
    suppressMetadata := false
    rangeLimited := false
    maxFrames := 0
    firstSample := 0
    emittedFrames := 0
    rangeComplete := false }

/-- `prepare_decode_context`, for a consumer that is not `NULL`. -/
def prepareDecodeContext (J : Jvm) (m : Machine) : Bool × Machine :=
  let consumerClass := m.callJavaObject J .getObjectClass
  if !consumerClass.1 then (false, consumerClass.2)
  else
    let methods := consumerClass.2.resolve J
      [.getMethodID "onStreamInfo", .getMethodID "onPcmInterleaved", .getMethodID "onComplete"]
    (methods.1, methods.2.withContext methods.2.context.prepared)

/-- `configure_decode_range`. -/
def DecodeContext.configureDecodeRange (c : DecodeContext) (firstSample : ℤ) (rangeLimited : Bool)
    (maxFrames : ℤ) : DecodeContext :=
  { c with
    rangeLimited := rangeLimited
    maxFrames := if rangeLimited then maxFrames.toNat else 0
    firstSample := firstSample.toNat
    emittedFrames := 0
    rangeComplete := rangeLimited && maxFrames == 0 }

/-- `validate_decode_request`: the message of the exception, if there is one. -/
def validateDecodeRequest (firstSample : ℤ) (rangeLimited : Bool) (maxFrames : ℤ) :
    Option String :=
  if firstSample < 0 then some "First sample must be non-negative."
  else if rangeLimited ∧ maxFrames < 0 then some "Max frames must be non-negative."
  else if rangeLimited ∧ longMax - firstSample < maxFrames then
    some "Decode range end must not overflow Long."
  else none

/-- `decode_range_starts_after_stream`. -/
def DecodeContext.rangeStartsAfterStream (c : DecodeContext) (firstSample : ℤ) : Bool :=
  c.sawStreamInfo && decide (0 < c.streamTotalSamples) &&
    decide (c.streamTotalSamples < firstSample.toNat)

/-- `decode_range_starts_at_stream_end`. -/
def DecodeContext.rangeStartsAtStreamEnd (c : DecodeContext) (firstSample : ℤ) : Bool :=
  c.sawStreamInfo && decide (0 < c.streamTotalSamples) &&
    decide (firstSample.toNat = c.streamTotalSamples)

/-! ## Frame-count checks -/

/-- The exception text of a link with too few or too many frames. -/
def chainedLinkMessage (emittedForLink total : ℕ) : String :=
  snprintf ("Chained Ogg FLAC link ended after " ++ toString emittedForLink ++
    " frames, but its STREAMINFO total declares exactly " ++ toString total ++ " frames.")

/-- The number of frames emitted since the last STREAMINFO of a chain. -/
def DecodeContext.emittedForLink (c : DecodeContext) : ℕ :=
  c.emittedFrames - c.currentLinkStartEmittedFrames

/-- `validate_chained_link_sample_count`. -/
def validateChainedLinkSampleCount (m : Machine) : Bool × Machine :=
  let c := m.context
  if c.currentLinkTotalSamples = 0 then (true, m)
  else if c.emittedForLink = c.currentLinkTotalSamples then (true, m)
  else (false, m.throwDecode (chainedLinkMessage c.emittedForLink c.currentLinkTotalSamples))

/-- The exception text of a stream that ends early. -/
def physicalEofMessage (c : DecodeContext) : String :=
  snprintf ("FLAC stream reached physical EOF after " ++ toString c.emittedFrames ++
    " frames from sample " ++ toString c.firstSample ++ ", but STREAMINFO declares " ++
    toString c.streamTotalSamples ++ " total frames.")

/-- The condition under which physical EOF is accepted. -/
def DecodeContext.eofAccepted (c : DecodeContext) : Bool :=
  !c.sawStreamInfo || decide (c.streamTotalSamples = 0) ||
    decide (c.streamTotalSamples ≤ c.firstSample) ||
    decide (c.streamTotalSamples - c.firstSample ≤ c.emittedFrames)

/-- `validate_physical_eof_sample_count`. -/
def validatePhysicalEofSampleCount (m : Machine) : Bool × Machine :=
  if m.exceptionCheck then (false, m)
  else if m.context.eofAccepted then (true, m)
  else (false, m.throwDecode (physicalEofMessage m.context))

/-! ## `process_decode_stream` -/

/-- The context after `finish_link` failed without an error. -/
def DecodeContext.failLinkMd5 (c : DecodeContext) : DecodeContext :=
  { c with chainedLinkMd5Failed := true }

/-- The loop of `process_decode_stream` over the links of a chain. -/
def processLinks (F : LibFlac D) (J : Jvm) : ℕ → Stream D → Machine →
    Option Bool × Stream D × Machine
  | 0, s, m => (none, s, m)
  | fuel + 1, s, m =>
    let link :=
      F.call J .processUntilEndOfLink (F.processUntilEndOfLink s.decoder) s.transportCalls m
    let s := link.2.1
    let m := link.2.2
    if !link.1 || m.context.sawError || m.exceptionCheck then (some false, s, m)
    else
      match F.getState s.decoder with
      | .endOfStream =>
        let count := validateChainedLinkSampleCount m
        (some count.1, s, count.2)
      | .endOfLink =>
        let count := validateChainedLinkSampleCount m
        if !count.1 then (some false, s, count.2)
        else
          let finish := F.callFinishLink s count.2
          let s := finish.2.1
          let m := finish.2.2
          if m.context.sawError then (some false, s, m)
          else if !finish.1 then
            (some false, s, m.withContext m.context.failLinkMd5)
          else processLinks F J fuel s m
      | _ => (some false, s, m)

/-- The unlimited, unchained branch of `process_decode_stream`. -/
def processToEnd (F : LibFlac D) (J : Jvm) (s : Stream D) (m : Machine) :
    Option Bool × Stream D × Machine :=
  let stream :=
    F.call J .processUntilEndOfStream (F.processUntilEndOfStream s.decoder) s.transportCalls m
  let s := stream.2.1
  let m := stream.2.2
  if !stream.1 || m.context.sawError || m.exceptionCheck then (some false, s, m)
  else if F.getState s.decoder ≠ .endOfStream then (some true, s, m)
  else
    let count := validatePhysicalEofSampleCount m
    (some count.1, s, count.2)

/-- The bounded loop of `process_decode_stream`, one frame at a time. -/
def processRange (F : LibFlac D) (J : Jvm) : ℕ → Stream D → Machine →
    Option Bool × Stream D × Machine
  | 0, s, m => (none, s, m)
  | fuel + 1, s, m =>
    if m.context.rangeComplete then (some true, s, m)
    else if m.exceptionCheck then (some false, s, m)
    else
      let single := F.call J .processSingle (F.processSingle s.decoder) s.transportCalls m
      let s := single.2.1
      let m := single.2.2
      if !single.1 || m.context.sawError then (some false, s, m)
      else if m.exceptionCheck then (some false, s, m)
      else
        match F.getState s.decoder with
        | .endOfStream =>
          let count := validatePhysicalEofSampleCount m
          (some count.1, s, count.2)
        | .aborted => (some false, s, m)
        | _ => processRange F J fuel s m

/-- `process_decode_stream`. -/
def processDecodeStream (F : LibFlac D) (J : Jvm) (fuel : ℕ) (s : Stream D) (m : Machine) :
    Option Bool × Stream D × Machine :=
  if m.context.rangeLimited then processRange F J fuel s m
  else if m.context.decodeChainedOgg then processLinks F J fuel s m
  else processToEnd F J s m

end JFlac.Decode
