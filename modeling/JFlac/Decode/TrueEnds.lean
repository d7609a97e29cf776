import JFlac.Decode.Completion
import JFlac.Decode.PullEnds
import JFlac.Decode.WholeStreams

/-!
# Operations that complete at their end

A decode that reports success should have emitted the window it was asked for, or have found the
decoder at the end of the stream with no declared frame missing. Three of the four loops test the
decoder state for that. The unbounded one takes the boolean of `process_until_end_of_stream` alone, so
it keeps the promise as long as libFLAC returns true there only at the end of the stream.
-/

namespace JFlac.Decode

open Machine

variable {D : Type}

/-- `process_until_end_of_stream` returned true only at the end of the stream. -/
def ReturnsTruly (events : List Event) : Prop :=
  ∀ state, .returned .processUntilEndOfStream true state none ∈ events → state = .endOfStream

/-- The end that an operation must have come to when it reports success. -/
inductive AtEnd (asked : Asked) (c : DecodeContext) (events : List Event) : Prop
  /-- The bounded window has been emitted completely. -/
  | window (hlimit : asked.limit = some (framesHeard events))
  /-- The request starts exactly at the declared end: there is nothing to emit. -/
  | nothing (hinfo : c.sawStreamInfo = true) (htotal : 0 < c.streamTotalSamples)
      (hfirst : asked.firstSample = c.streamTotalSamples)
  /-- The decoder was at the end of the stream, and no declared frame is missing. -/
  | endOfStream (api : Api) (hevent : .returned api true .endOfStream none ∈ events)
      (hcount : c.sawStreamInfo = true → 0 < c.streamTotalSamples →
        c.streamTotalSamples - asked.firstSample ≤ framesHeard events)
  /-- So it was at the end of a chain, and the last link had the frames that it declares. -/
  | endOfChain (hchained : asked.chained = true)
      (hevent : .returned .processUntilEndOfLink true .endOfStream none ∈ events)
      (hcount : 0 < c.currentLinkTotalSamples →
        framesHeard events - c.currentLinkStartEmittedFrames = c.currentLinkTotalSamples)

/-- A completed operation came to its end, and no loop went on from a decoder that was left in state
ABORTED. -/
structure EndsWell (asked : Asked) (c : DecodeContext) (events : List Event) : Prop where
  atEnd : AtEnd asked c events
  notAborted : ∀ api, api.isProcess = true → .returned api true .aborted none ∉ events

theorem EndsWell.of_reached {asked : Asked} {c : DecodeContext} {events : List Event}
    (h : Reached asked c events) (hgoesOn : ∀ e ∈ events, e.isGivenUp = false)
    (htruly : ReturnsTruly events) : EndsWell asked c events := by
  constructor
  · cases h with
    | full hlimit => exact .window hlimit
    | atEnd hinfo htotal hfirst => exact .nothing hinfo htotal hfirst
    | endOfStream api hevent htotal =>
      refine .endOfStream api hevent fun hinfo hpos => ?_
      have := htotal hinfo hpos
      omega
    | endOfChain hchained hevent hlink hverified =>
      refine .endOfChain hchained hevent fun hpos => ?_
      have := hlink hpos
      omega
    | cutShort hlimit hchained state hstate hevent => exact absurd (htruly state hevent) hstate
  · intro api hprocess haborted
    cases api with
    | processUntilEndOfStream => exact absurd (htruly _ haborted) (by simp)
    | processSingle => exact Bool.noConfusion (hgoesOn _ haborted)
    | processUntilEndOfLink => exact Bool.noConfusion (hgoesOn _ haborted)
    | _ => cases hprocess

/-- What is promised of an operation that began with the history `base`. -/
abbrev CompletesWell (base : List Event) (asked : Asked) (m : Machine) : Prop :=
  CompletesOnly base (fun events => ReturnsTruly events → EndsWell asked m.context events) m

section
variable {base : List Event} {asked : Asked} {m : Machine}

theorem CompletesWell.of_oneShot (h : OneShotDone base asked m) : CompletesWell base asked m :=
  h.mono fun _ hdone htruly => .of_reached hdone.1.2 hdone.2 htruly

theorem CompletesWell.of_session (h : SessionDone base asked m) : CompletesWell base asked m :=
  h.mono fun _ hdone htruly => .of_reached hdone.1 hdone.2 htruly

end

/-- Whatever libFLAC and the JVM do, every operation that reports success came to its end, as long as
`process_until_end_of_stream` returns true at the end of the stream only. -/
theorem success_endsWell (F : LibFlac D) (J : Jvm) :
    (∀ fuel path consumer request,
      CompletesWell [] request.asked (decodeFileInternal F J fuel path consumer request).machine) ∧
    (∀ fuel channel consumer request, CompletesWell [] request.asked
      (decodeChannelInternal F J fuel channel consumer request).machine) ∧
    (∀ fuel inputStream consumer container checkMd5 decodeChainedOgg,
      CompletesWell [] (DecodeRequest.whole container checkMd5 decodeChainedOgg).asked
        (decodeStreamInternal F J fuel inputStream consumer container checkMd5
          decodeChainedOgg).machine) ∧
    (∀ (session : Session D) (fuel : ℕ) (firstSample : ℤ) (consumer : Bool),
      CompletesWell session.machine.history
        ⟨firstSample.toNat, none, session.machine.context.decodeChainedOgg⟩
        (decodeDecoderFrom F J fuel firstSample consumer session).session.machine ∧
      ∀ maxFrames : ℤ, CompletesWell session.machine.history
        ⟨firstSample.toNat, some maxFrames.toNat, session.machine.context.decodeChainedOgg⟩
        (decodeDecoderRange F J fuel firstSample maxFrames consumer session).session.machine) ∧
    ∀ (p : PullSession D) (given : ℕ), PulledTo F J p given →
      ∀ (fuel : ℕ) (samples : List Sample) (maxFrames : ℤ) (out : List Sample),
        (p.readInterleaved F J fuel samples maxFrames).1 = .returned (-1, out) →
        let m := (p.readInterleaved F J fuel samples maxFrames).2.native.machine
        LastReturn m.history (.returned .processSingle true .endOfStream none) ∧
          (m.context.sawStreamInfo = true → 0 < m.context.streamTotalSamples →
            m.context.streamTotalSamples ≤ given) := by
  refine ⟨fun fuel path consumer request => ?_, fun fuel channel consumer request => ?_,
    fun fuel inputStream consumer container checkMd5 decodeChainedOgg => ?_,
    fun session fuel firstSample consumer => ⟨?_, fun maxFrames => ?_⟩,
    fun p given hpulled fuel samples maxFrames out hreturned => ?_⟩
  · exact .of_oneShot (decodeFileInternal_oneShot F J fuel path consumer request).completesOnly
  · exact .of_oneShot
      (decodeChannelInternal_oneShot F J fuel channel consumer request).completesOnly
  · exact .of_oneShot (decodeStreamInternal_oneShot F J fuel inputStream consumer container checkMd5
      decodeChainedOgg).completesOnly
  · exact .of_session (decodeDecoderFrom_completesOnly F J fuel firstSample consumer session)
  · exact .of_session
      (decodeDecoderRange_completesOnly F J fuel firstSample maxFrames consumer session)
  · exact hpulled.returned_end fuel samples maxFrames hreturned

/-- A file that declares five frames, of which libFLAC hands over two before it returns true in state
ABORTED: the decode completes, and it did not come to its end. -/
theorem decodeFile_aborted_completes :
    let decoded := (decodeFile cutShort quietJvm 0 true true containerNative true false).machine
    (∃ e ∈ decoded.history, e.isComplete = true) ∧ decoded.pending = none ∧
      .returned .processUntilEndOfStream true .aborted none ∈ decoded.history ∧
      ¬ AtEnd (DecodeRequest.whole containerNative true false).asked decoded.context
        decoded.history := by
  intro decoded
  have hevents : decoded.history.any (·.isComplete) = true ∧ decoded.pending = none ∧
      decoded.context.streamTotalSamples = 5 ∧ decoded.context.sawStreamInfo = true ∧
      framesHeard decoded.history = 2 := by
    decide +kernel
  obtain ⟨hcomplete, hnone, htotal, hinfo, hframes⟩ := hevents
  refine ⟨List.any_eq_true.mp hcomplete, hnone, ?_, fun hend => ?_⟩
  · have hreturned : decoded.history[14]? =
        some (.returned .processUntilEndOfStream true .aborted none) := rfl
    exact List.mem_of_getElem? hreturned
  · cases hend with
    | window hlimit => cases hlimit
    | nothing hinfo hpos hfirst =>
      rw [htotal] at hfirst
      cases hfirst
    | endOfStream api hevent hcount =>
      have hcount := hcount hinfo (by omega)
      rw [htotal, hframes] at hcount
      exact absurd hcount (by decide)
    | endOfChain hchained => cases hchained

end JFlac.Decode
