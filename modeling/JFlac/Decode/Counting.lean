import JFlac.Decode.FrameCounts

/-!
# Counting frames under any libFLAC

Nothing is assumed here of libFLAC or of the JVM: callbacks may come in any order, calls may return
anything and leave the decoder in any state. `Counted` is what every callback keeps: the frames the
consumer took are the frames the context counts, and a range is complete when it is full. So a loop
of `process_decode_stream` succeeds only where the operation may end (`Reached`).
-/

namespace JFlac.Decode

open Machine

variable {D : Type}

/-! ## What was asked for -/

/-- The part of the audio an operation was asked for. -/
structure Asked where
  firstSample : ℕ
  limit : Option ℕ
  chained : Bool
  deriving DecidableEq, Repr

/-- The request as the context has it. -/
def DecodeContext.asked (c : DecodeContext) : Asked :=
  { firstSample := c.firstSample
    limit := if c.rangeLimited then some c.maxFrames else none
    chained := c.decodeChainedOgg }

/-- The request of a one-shot decode. -/
def DecodeRequest.asked (request : DecodeRequest) : Asked :=
  { firstSample := request.firstSample.toNat
    limit := if request.rangeLimited then some request.maxFrames.toNat else none
    chained := request.decodeChainedOgg }

theorem DecodeContext.asked_limit {c : DecodeContext} (h : c.rangeLimited = true) :
    c.asked.limit = some c.maxFrames := if_pos h

theorem DecodeContext.asked_unlimited {c : DecodeContext} (h : ¬ c.rangeLimited = true) :
    c.asked.limit = none := if_neg h

/-- The fields that count frames, with the request they depend on. -/
def DecodeContext.counters (c : DecodeContext) : Bool × Asked × ℕ × Bool :=
  (c.pullMode, c.asked, c.emittedFrames, c.rangeComplete)

/-- A failed check of the signature of an inner link. -/
def Event.isFailedLink : Event → Bool
  | .returned .finishLink success _ _ => !success
  | _ => false

/-- A return that a loop does not go on from, although nothing was raised: the failed check of an
inner link, or a decoder that was left in state ABORTED. -/
def Event.isGivenUp : Event → Bool
  | .returned .finishLink success _ _ => !success
  | .returned .processSingle true .aborted none => true
  | .returned .processUntilEndOfLink true .aborted none => true
  | _ => false

theorem Event.isFailedLink_of_isGivenUp {e : Event} (h : e.isGivenUp = false) :
    e.isFailedLink = false := by
  cases e with
  | returned api success state pending => cases api <;> first | rfl | exact h
  | _ => rfl

/-- Neither PCM that was taken nor the end of an operation. -/
def Event.Uncounted (e : Event) : Prop :=
  e.chunk? = none ∧ e.isComplete = false ∧ e.isGivenUp = false

theorem Event.Uncounted.of_isInternal {e : Event} (h : e.isInternal = true) : e.Uncounted := by
  cases e with
  | java call outcome =>
    cases call with
    | onPcmInterleaved => simp [Event.isInternal] at h
    | onComplete => simp [Event.isInternal] at h
    | _ => exact ⟨rfl, rfl, rfl⟩
  | returned => simp [Event.isInternal] at h
  | _ => exact ⟨rfl, rfl, rfl⟩

theorem framesHeard_append (events events' : List Event) :
    framesHeard (events ++ events') = framesHeard events + framesHeard events' := by
  unfold framesHeard
  rw [List.filterMap_append, List.map_append, List.sum_append]

theorem framesHeard_quiet {events : List Event} (h : ∀ e ∈ events, e.chunk? = none) :
    framesHeard events = 0 := by
  unfold framesHeard
  rw [List.filterMap_eq_nil_iff.mpr h]
  rfl

/-! ## The count of frames -/

/-- What is known of an operation that began with the history `base`, whatever libFLAC did. -/
structure Counted (base : List Event) (asked : Asked) (m : Machine) : Prop where
  push : m.context.pullMode = false
  request : m.context.asked = asked
  heard : ∃ events, m.history = base ++ events ∧ framesHeard events = m.context.emittedFrames ∧
    ∀ e ∈ events, e.isComplete = false ∧ e.isGivenUp = false
  bound : ∀ n ∈ asked.limit, n < 18446744073709551616
  within : ∀ n ∈ asked.limit, m.context.emittedFrames ≤ n
  complete : m.context.rangeComplete = true → asked.limit = some m.context.emittedFrames

namespace Counted

variable {base : List Event} {asked : Asked} {m m' : Machine}

/-- What neither counts frames nor hands them over changes nothing. -/
theorem adds (h : Counted base asked m) (hcounters : m'.context.counters = m.context.counters)
    (hadds : Adds Event.Uncounted m m') : Counted base asked m' := by
  simp only [DecodeContext.counters, Prod.mk.injEq] at hcounters
  obtain ⟨hpush, hasked, hemitted, hcomplete⟩ := hcounters
  obtain ⟨events, hhistory, hheard, hcontinues⟩ := h.heard
  obtain ⟨extra, hhistory', hextra⟩ := hadds
  refine ⟨hpush.trans h.push, hasked.trans h.request, ⟨events ++ extra, ?_, ?_, ?_⟩, h.bound, ?_,
    ?_⟩
  · rw [hhistory', hhistory, List.append_assoc]
  · rw [framesHeard_append, framesHeard_quiet fun e he => (hextra e he).1, Nat.add_zero, hheard,
      hemitted]
  · intro e he
    exact (List.mem_append.mp he).elim (hcontinues e) fun he => (hextra e he).2
  · rw [hemitted]
    exact h.within
  · rw [hcomplete, hemitted]
    exact h.complete

theorem record (h : Counted base asked m) {event : Event} (hevent : event.Uncounted) :
    Counted base asked (m.record event) :=
  h.adds rfl (.single rfl hevent)

/-- How many frames of a block the range leaves room for. -/
theorem outputFrames (h : Counted base asked m) (frames : ℕ) :
    (m.context.outputFrames frames = none → asked.limit = some m.context.emittedFrames) ∧
      ∀ n, m.context.outputFrames frames = some n →
        ∀ limit ∈ asked.limit, m.context.emittedFrames + n ≤ limit := by
  have hasked := h.request
  unfold DecodeContext.outputFrames
  by_cases hlimited : m.context.rangeLimited = true
  swap
  · have hnone : asked.limit = none := by rw [← hasked, DecodeContext.asked_unlimited hlimited]
    rw [if_neg hlimited, hnone]
    simp
  have hlimit : asked.limit = some m.context.maxFrames := by
    rw [← hasked, DecodeContext.asked_limit hlimited]
  have hwithin := h.within _ (Option.mem_def.mpr hlimit)
  rw [if_pos hlimited, sub64_of_le hwithin (h.bound _ (Option.mem_def.mpr hlimit)), hlimit]
  dsimp only
  split
  · rename_i hfull
    refine ⟨fun _ => ?_, by simp⟩
    rw [show m.context.maxFrames = m.context.emittedFrames by omega]
  · refine ⟨by simp, fun n hn limit hmem => ?_⟩
    obtain rfl := Option.some.inj hn
    obtain rfl := Option.some.inj hmem
    omega

/-- The write callback counts what the consumer takes. -/
theorem write {frame : Frame} {status : WriteStatus} (h : Counted base asked m)
    (hstep : WriteStep frame m status m') : Counted base asked m' := by
  cases hstep with
  | refused => exact h
  | outside hnone herror hframes =>
    exact ⟨h.push, h.request, h.heard, h.bound, h.within, fun _ => (h.outputFrames _).1 hframes⟩
  | failed exception events hnone herror hinternal hfailure =>
    exact h.adds rfl ⟨events, rfl, fun e he => .of_isInternal (hinternal e he)⟩
  | threw exception frames hnone herror hframes =>
    refine h.adds rfl ⟨_, rfl, ?_⟩
    simp [Event.Uncounted, Event.chunk?, Event.isComplete, Event.isGivenUp]
  | forwarded frames hnone herror hframes hchannels hpos =>
    obtain ⟨events, hhistory, hheard, hcontinues⟩ := h.heard
    have hroom := (h.outputFrames _).2 frames hframes
    refine ⟨h.push, h.request, ⟨events ++ forwardEvents frame frames, ?_, ?_, ?_⟩, h.bound,
      hroom, fun hcomplete => ?_⟩
    · show m.history ++ _ = _
      rw [hhistory, List.append_assoc]
    · have hone : framesHeard (forwardEvents frame frames) = frames := by
        show [frames].sum = frames
        exact List.sum_singleton
      rw [framesHeard_append, hheard, hone]
      rfl
    · intro e he
      rcases List.mem_append.mp he with he | he
      · exact hcontinues e he
      · simp only [forwardEvents, List.mem_cons, List.not_mem_nil, or_false] at he
        rcases he with rfl | rfl <;> exact ⟨rfl, rfl⟩
    · -- the range was complete before, or this block has filled it
      have hcomplete : (m.context.rangeComplete || (m.context.rangeLimited &&
          decide (m.context.maxFrames ≤ m.context.emittedFrames + frames))) = true := hcomplete
      have hlimited : m.context.rangeLimited = true := by
        by_contra hunlimited
        rcases Bool.or_eq_true_iff.mp hcomplete with hbefore | hnow
        · have := h.complete hbefore
          rw [← h.request, DecodeContext.asked_unlimited hunlimited] at this
          cases this
        · exact hunlimited (Bool.and_eq_true_iff.mp hnow).1
      have hlimit : asked.limit = some m.context.maxFrames := by
        rw [← h.request, DecodeContext.asked_limit hlimited]
      have hle := hroom _ (Option.mem_def.mpr hlimit)
      show asked.limit = some (m.context.emittedFrames + frames)
      rw [hlimit]
      rcases Bool.or_eq_true_iff.mp hcomplete with hbefore | hnow
      · have hfull := Option.some.inj (hlimit.symm.trans (h.complete hbefore))
        omega
      · have hfilled := of_decide_eq_true (Bool.and_eq_true_iff.mp hnow).2
        rw [show m.context.maxFrames = m.context.emittedFrames + frames by omega]

/-- STREAMINFO carries no frames. -/
theorem metadata {block : Metadata} (h : Counted base asked m) (hstep : MetadataStep m block m') :
    Counted base asked m' := by
  have hcalls : ∀ {info : StreamInfo} {events : List Event} {before after : Option Throwable},
      StreamInfoCalls info before events after → ∀ e ∈ events, e.Uncounted := by
    intro info events before after hcalls
    cases hcalls <;> simp [Event.Uncounted, Event.chunk?, Event.isComplete, Event.isGivenUp]
  cases hstep with
  | ignored => exact h
  | laterLink => exact h.adds rfl (.of_history rfl)
  | mismatch => exact h.adds rfl (.single rfl ⟨rfl, rfl, rfl⟩)
  | firstLink info events after hchained hcount hinfo =>
    exact h.adds rfl ⟨events, rfl, hcalls hinfo⟩
  | stored info events after hchained hinfo => exact h.adds rfl ⟨events, rfl, hcalls hinfo⟩

theorem transport (h : Counted base asked m) (hstep : TransportStep m m') :
    Counted base asked m' := by
  cases hstep with
  | unchanged => exact h
  | threw => exact h.adds rfl (.single rfl ⟨rfl, rfl, rfl⟩)
  | raised => exact h.adds rfl (.single rfl ⟨rfl, rfl, rfl⟩)

/-- The error callback. -/
theorem error (h : Counted base asked m) (status : ErrorStatus) :
    Counted base asked (decodeErrorCallback status (m.record (.errorCallback status))) :=
  h.adds rfl (.single rfl ⟨rfl, rfl, rfl⟩)

/-- Every callback keeps the count. -/
theorem handle (h : Counted base asked m) (J : Jvm) (callback : Callback)
    (calls : List TransportCall) :
    Counted base asked (handle J callback (m, calls)).2.1 := by
  cases callback with
  | write frame =>
    have hrecorded : Counted base asked (m.record (.writeCallback frame)) :=
      h.record ⟨rfl, rfl, rfl⟩
    exact hrecorded.write (decodeWriteCallback_step J frame hrecorded.push)
  | metadata block =>
    have hrecorded : Counted base asked (m.record (.metadataCallback block)) :=
      h.record ⟨rfl, rfl, rfl⟩
    exact hrecorded.metadata (decodeMetadataCallback_step J block _)
  | error status => exact h.error status
  | transport callback => exact h.transport (handleTransport_step J callback m calls)

/-- The record of an operation ends with the return of a libFLAC function. -/
theorem record_mem (h : Counted base asked m) {event : Event} {events : List Event}
    (hhistory : (m.record event).history = base ++ events) : event ∈ events := by
  obtain ⟨before, hbefore, -⟩ := h.heard
  rw [record_history, hbefore, List.append_assoc] at hhistory
  rw [← List.append_cancel_left hhistory]
  simp

/-- So does every libFLAC call, whose return is the last event, unless it is one to give up at. In
any case nothing was completed. -/
theorem call (h : Counted base asked m) (F : LibFlac D) (J : Jvm) (api : Api)
    (activity : Activity D) (calls : List TransportCall) :
    let r := F.call J api activity calls m
    ((Event.returned api r.1 (F.getState r.2.1.decoder) r.2.2.pending).isGivenUp = false →
      Counted base asked r.2.2) ∧
    (∃ events, r.2.2.history = base ++ events ∧ ∀ e ∈ events, e.isComplete = false) ∧
    ∀ events, r.2.2.history = base ++ events →
      .returned api r.1 (F.getState r.2.1.decoder) r.2.2.pending ∈ events := by
  have hrun : Counted base asked (activity.run (Decode.handle J) (m, calls)).2.1 :=
    Lib.Calls.run_invariant (P := fun s : Machine × List TransportCall => Counted base asked s.1)
      (fun callback s hs => hs.handle J callback s.2) activity h
  refine ⟨fun hgoesOn => hrun.record ⟨rfl, rfl, hgoesOn⟩, ?_, fun events => hrun.record_mem⟩
  obtain ⟨events, hhistory, -, hcontinues⟩ := hrun.heard
  refine ⟨events ++ [_], by rw [← List.append_assoc, ← hhistory]; rfl, fun e he => ?_⟩
  rcases List.mem_append.mp he with he | he
  · exact (hcontinues e he).1
  · rw [List.mem_singleton.mp he]
    rfl

/-- The error reports of `finish_link`. -/
theorem errors (h : Counted base asked m) (statuses : List ErrorStatus) :
    Counted base asked (statuses.foldl
      (fun m status => decodeErrorCallback status (m.record (.errorCallback status))) m) := by
  induction statuses generalizing m with
  | nil => exact h
  | cons status statuses ih => exact ih (h.error status)

/-- `finish_link` keeps it when it succeeds. -/
theorem callFinishLink (h : Counted base asked m) (F : LibFlac D) (s : Stream D)
    (hsuccess : (F.callFinishLink s m).1 = true) :
    Counted base asked (F.callFinishLink s m).2.2 := by
  refine (h.errors _).record ⟨rfl, rfl, ?_⟩
  have hsuccess : (F.finishLink s.decoder).2.1 = true := hsuccess
  simp [Event.isGivenUp, hsuccess]

/-- However it ends, `finish_link` completes nothing. -/
theorem callFinishLink_incomplete (h : Counted base asked m) (F : LibFlac D) (s : Stream D) :
    ∃ events, (F.callFinishLink s m).2.2.history = base ++ events ∧
      ∀ e ∈ events, e.isComplete = false := by
  obtain ⟨events, hhistory, -, hcontinues⟩ := (h.errors (F.finishLink s.decoder).1).heard
  unfold LibFlac.callFinishLink
  dsimp only
  rw [record_history, hhistory, List.append_assoc]
  refine ⟨_, rfl, fun e he => ?_⟩
  rcases List.mem_append.mp he with he | he
  · exact (hcontinues e he).1
  · rw [List.mem_singleton.mp he]
    rfl

end Counted

/-! ## Where an operation may end -/

/-- The operation has what it was asked for, or the stream has no more. -/
inductive Reached (asked : Asked) (c : DecodeContext) (events : List Event) : Prop
  /-- The range is full. -/
  | full (hlimit : asked.limit = some (framesHeard events))
  /-- The range begins where the stream ends. -/
  | atEnd (hinfo : c.sawStreamInfo = true) (htotal : 0 < c.streamTotalSamples)
      (hfirst : asked.firstSample = c.streamTotalSamples)
  /-- libFLAC is at the end of the stream, and all declared frames were there. -/
  | endOfStream (api : Api) (hevent : .returned api true .endOfStream none ∈ events)
      (htotal : c.sawStreamInfo = true → 0 < c.streamTotalSamples →
        c.streamTotalSamples ≤ asked.firstSample + framesHeard events)
  /-- libFLAC is at the end of the last link: that link had its declared frames, and the signatures
  of all others were verified. -/
  | endOfChain (hchained : asked.chained = true)
      (hevent : .returned .processUntilEndOfLink true .endOfStream none ∈ events)
      (hlink : 0 < c.currentLinkTotalSamples →
        framesHeard events = c.currentLinkStartEmittedFrames + c.currentLinkTotalSamples)
      (hverified : ∀ e ∈ events, e.isFailedLink = false)
  /-- `process_until_end_of_stream` was content in front of the end. -/
  | cutShort (hlimit : asked.limit = none) (hchained : asked.chained = false)
      (state : DecoderState) (hstate : state ≠ .endOfStream)
      (hevent : .returned .processUntilEndOfStream true state none ∈ events)

/-- What happens afterwards without PCM does not change where an operation ended. -/
theorem Reached.append {asked : Asked} {c : DecodeContext} {events extra : List Event}
    (h : Reached asked c events) (hextra : ∀ e ∈ extra, e.chunk? = none ∧ e.isFailedLink = false) :
    Reached asked c (events ++ extra) := by
  have hheard : framesHeard (events ++ extra) = framesHeard events := by
    rw [framesHeard_append, framesHeard_quiet fun e he => (hextra e he).1, Nat.add_zero]
  cases h with
  | full hlimit => exact .full (by rw [hheard]; exact hlimit)
  | atEnd hinfo htotal hfirst => exact .atEnd hinfo htotal hfirst
  | endOfStream api hevent htotal =>
    exact .endOfStream api (List.mem_append_left _ hevent) (by rw [hheard]; exact htotal)
  | endOfChain hchained hevent hlink hverified =>
    refine .endOfChain hchained (List.mem_append_left _ hevent) (by rw [hheard]; exact hlink) ?_
    intro e he
    exact (List.mem_append.mp he).elim (hverified e) fun he => (hextra e he).2
  | cutShort hlimit hchained state hstate hevent =>
    exact .cutShort hlimit hchained state hstate (List.mem_append_left _ hevent)

/-- An operation that began with the history `base` has not completed, and stands where it may if
`success` says so: then it was never at a return to give up at. -/
def Stands (base : List Event) (asked : Asked) (success : Prop) (m : Machine) : Prop :=
  ∃ events, m.history = base ++ events ∧ (∀ e ∈ events, e.isComplete = false) ∧
    (success → Reached asked m.context events ∧ ∀ e ∈ events, e.isGivenUp = false)

section
variable {base : List Event} {asked : Asked} {m m' : Machine} {success : Prop}

theorem Counted.stands (h : Counted base asked m) (hsuccess : ¬ success) :
    Stands base asked success m := by
  obtain ⟨events, hhistory, -, hcontinues⟩ := h.heard
  exact ⟨events, hhistory, fun e he => (hcontinues e he).1, fun h => absurd h hsuccess⟩

/-- An operation that has given up stands nowhere. -/
theorem Stands.of_incomplete (hsuccess : ¬ success)
    (h : ∃ events, m.history = base ++ events ∧ ∀ e ∈ events, e.isComplete = false) :
    Stands base asked success m := by
  obtain ⟨events, hhistory, hincomplete⟩ := h
  exact ⟨events, hhistory, hincomplete, fun h => absurd h hsuccess⟩

theorem Stands.adds (h : Stands base asked success m) (hadds : Adds Event.Uncounted m m')
    (hcontext : m'.context = m.context) : Stands base asked success m' := by
  obtain ⟨events, hhistory, hincomplete, hreached⟩ := h
  obtain ⟨extra, hhistory', hextra⟩ := hadds
  refine ⟨events ++ extra, by rw [hhistory', hhistory, List.append_assoc], ?_, fun hsuccess => ?_⟩
  · intro e he
    exact (List.mem_append.mp he).elim (hincomplete e) fun he => (hextra e he).2.1
  · obtain ⟨hreached, hgoesOn⟩ := hreached hsuccess
    rw [hcontext]
    refine ⟨hreached.append fun e he => ⟨(hextra e he).1,
      Event.isFailedLink_of_isGivenUp (hextra e he).2.2⟩, fun e he => ?_⟩
    exact (List.mem_append.mp he).elim (hgoesOn e) fun he => (hextra e he).2.2

theorem Stands.mono {success' : Prop} (h : Stands base asked success m)
    (himp : success' → success) : Stands base asked success' m := by
  obtain ⟨events, hhistory, hincomplete, hreached⟩ := h
  exact ⟨events, hhistory, hincomplete, fun hsuccess => hreached (himp hsuccess)⟩

/-- A complete range is full. -/
theorem Counted.stands_full (h : Counted base asked m)
    (hcomplete : m.context.rangeComplete = true) :
    Stands base asked success m := by
  obtain ⟨events, hhistory, hheard, hcontinues⟩ := h.heard
  refine ⟨events, hhistory, fun e he => (hcontinues e he).1, fun _ => ⟨.full ?_, fun e he =>
    (hcontinues e he).2⟩⟩
  rw [hheard]
  exact h.complete hcomplete

/-- A request that starts where the stream ends. -/
theorem Counted.stands_atEnd (h : Counted base asked m) (hinfo : m.context.sawStreamInfo = true)
    (htotal : 0 < m.context.streamTotalSamples)
    (hfirst : asked.firstSample = m.context.streamTotalSamples) : Stands base asked success m := by
  obtain ⟨events, hhistory, -, hcontinues⟩ := h.heard
  exact ⟨events, hhistory, fun e he => (hcontinues e he).1, fun _ =>
    ⟨.atEnd hinfo htotal hfirst, fun e he => (hcontinues e he).2⟩⟩

/-- A libFLAC call has returned at the end of the stream. -/
theorem Counted.stands_eof (h : Counted base asked m) (api : Api)
    (hevent : ∀ events, m.history = base ++ events → .returned api true .endOfStream none ∈ events)
    (hnone : m.pending = none) :
    Stands base asked ((validatePhysicalEofSampleCount m).1 = true)
      (validatePhysicalEofSampleCount m).2 := by
  obtain ⟨events, hhistory, hheard, hcontinues⟩ := h.heard
  rcases validatePhysicalEofSampleCount_cases hnone with ⟨haccepted, heq⟩ | ⟨-, heq⟩
  · rw [heq]
    refine ⟨events, hhistory, fun e he => (hcontinues e he).1, fun _ =>
      ⟨.endOfStream api (hevent events hhistory) fun hinfo htotal => ?_, fun e he =>
        (hcontinues e he).2⟩⟩
    have hinfo : m.context.sawStreamInfo = true := hinfo
    have htotal : 0 < m.context.streamTotalSamples := htotal
    have hfirst : m.context.firstSample = asked.firstSample := congrArg Asked.firstSample h.request
    simp only [DecodeContext.eofAccepted, hinfo, Bool.not_true, Bool.false_or, Bool.or_eq_true,
      decide_eq_true_eq] at haccepted
    show m.context.streamTotalSamples ≤ asked.firstSample + framesHeard events
    rw [hheard, ← hfirst]
    omega
  · rw [heq]
    have hthrown : Counted base asked (m.throwDecode (physicalEofMessage m.context)) :=
      h.adds rfl (.single rfl ⟨rfl, rfl, rfl⟩)
    exact hthrown.stands (by simp)

end

/-! ## The loops -/

section
variable (F : LibFlac D) (J : Jvm) {base : List Event} {asked : Asked}

/-- Once errors and exceptions are ruled out, the return of libFLAC is the one the record shows. -/
theorem returned_of_check {api : Api} {events : List Event} {success : Bool} {state : DecoderState}
    {pending : Option Throwable} (h : .returned api success state pending ∈ events)
    (hsuccess : success = true) (hnone : pending = none) :
    .returned api true state none ∈ events := by
  rwa [hsuccess, hnone] at h

theorem processToEnd_stands (s : Stream D) {m : Machine} (h : Counted base asked m)
    (hlimit : asked.limit = none) (hchained : asked.chained = false) :
    Stands base asked ((processToEnd F J s m).1 = some true) (processToEnd F J s m).2.2 := by
  unfold processToEnd
  obtain ⟨hkept, -, hevent⟩ := h.call F J .processUntilEndOfStream
    (F.processUntilEndOfStream s.decoder) s.transportCalls
  have hcalled := hkept rfl
  generalize F.call J .processUntilEndOfStream _ _ m = stream at hcalled hevent
  dsimp only
  split
  · exact hcalled.stands (by simp)
  rename_i hcheck
  obtain ⟨hsuccess, -, hnone⟩ := check_cases hcheck
  split
  · -- the state is not asked for any further
    rename_i hstate
    obtain ⟨events, hhistory, -, hcontinues⟩ := hcalled.heard
    exact ⟨events, hhistory, fun e he => (hcontinues e he).1, fun _ =>
      ⟨.cutShort hlimit hchained _ hstate
        (returned_of_check (hevent events hhistory) hsuccess hnone), fun e he =>
          (hcontinues e he).2⟩⟩
  · rename_i hstate
    have hstate : F.getState stream.2.1.decoder = .endOfStream := not_not.mp hstate
    refine (hcalled.stands_eof .processUntilEndOfStream (fun events hhistory => ?_)
      hnone).mono (by simp)
    rw [← hstate]
    exact returned_of_check (hevent events hhistory) hsuccess hnone

theorem processRange_stands (fuel : ℕ) (s : Stream D) {m : Machine} (h : Counted base asked m) :
    Stands base asked ((processRange F J fuel s m).1 = some true)
      (processRange F J fuel s m).2.2 := by
  induction fuel generalizing s m with
  | zero => exact h.stands (by simp [processRange])
  | succ fuel ih =>
    unfold processRange
    split
    · rename_i hcomplete
      exact h.stands_full hcomplete
    split
    · exact h.stands (by simp)
    obtain ⟨hkept, hincomplete, hevent⟩ := h.call F J .processSingle
      (F.processSingle s.decoder) s.transportCalls
    generalize F.call J .processSingle _ _ m = single at hkept hincomplete hevent
    dsimp only at hkept hincomplete hevent ⊢
    split
    · exact .of_incomplete (by simp) hincomplete
    rename_i hcheck
    split
    · exact .of_incomplete (by simp) hincomplete
    rename_i hpending
    have hnone := pending_eq_none hpending
    have hsuccess : single.1 = true := by
      simp only [Bool.or_eq_true, Bool.not_eq_true', not_or, Bool.not_eq_false] at hcheck
      exact hcheck.1
    split
    · rename_i hstate
      have hcalled := hkept (by rw [hstate]; simp [Event.isGivenUp])
      refine (hcalled.stands_eof .processSingle (fun events hhistory => ?_) hnone).mono
        (by simp)
      rw [← hstate]
      exact returned_of_check (hevent events hhistory) hsuccess hnone
    · exact .of_incomplete (by simp) hincomplete
    · rename_i hother haborted
      refine ih single.2.1 (hkept ?_)
      cases hstate : F.getState single.2.1.decoder <;> simp_all [Event.isGivenUp]

/-- The count check of a link that succeeds. -/
theorem count_of_validateChainedLink {m : Machine}
    (h : (validateChainedLinkSampleCount m).1 = true)
    (htotal : 0 < m.context.currentLinkTotalSamples) :
    m.context.emittedFrames =
      m.context.currentLinkStartEmittedFrames + m.context.currentLinkTotalSamples := by
  unfold validateChainedLinkSampleCount at h
  dsimp only at h
  rw [if_neg (by omega)] at h
  split at h
  · rename_i hcount
    unfold DecodeContext.emittedForLink at hcount
    omega
  · simp at h

theorem processLinks_stands (fuel : ℕ) (s : Stream D) {m : Machine} (h : Counted base asked m)
    (hchained : asked.chained = true) :
    Stands base asked ((processLinks F J fuel s m).1 = some true)
      (processLinks F J fuel s m).2.2 := by
  induction fuel generalizing s m with
  | zero => exact h.stands (by simp [processLinks])
  | succ fuel ih =>
    unfold processLinks
    obtain ⟨hkept, hincomplete, hevent⟩ := h.call F J .processUntilEndOfLink
      (F.processUntilEndOfLink s.decoder) s.transportCalls
    generalize F.call J .processUntilEndOfLink _ _ m = link at hkept hincomplete hevent
    have hthrown : Counted base asked link.2.2 → ∀ message, Counted base asked
        (link.2.2.throwDecode message) :=
      fun hcalled message => hcalled.adds rfl (.single rfl ⟨rfl, rfl, rfl⟩)
    dsimp only at hkept hincomplete hevent ⊢
    split
    · exact .of_incomplete (by simp) hincomplete
    rename_i hcheck
    obtain ⟨hsuccess, -, hnone⟩ := check_cases hcheck
    split
    · rename_i hstate
      have hcalled := hkept (by rw [hstate]; simp [Event.isGivenUp])
      have hcount := fun h => count_of_validateChainedLink (m := link.2.2) h
      rcases validateChainedLinkSampleCount_cases link.2.2 with heq | heq
      · rw [heq] at hcount ⊢
        obtain ⟨events, hhistory, hheard, hcontinues⟩ := hcalled.heard
        refine ⟨events, hhistory, fun e he => (hcontinues e he).1, fun _ => ⟨.endOfChain hchained ?_
          (fun htotal => hheard.trans (hcount rfl htotal)) fun e he =>
            Event.isFailedLink_of_isGivenUp (hcontinues e he).2, fun e he => (hcontinues e he).2⟩⟩
        rw [← hstate]
        exact returned_of_check (hevent events hhistory) hsuccess hnone
      · rw [heq]
        exact (hthrown hcalled _).stands (by simp)
    · rename_i hstate
      have hcalled := hkept (by rw [hstate]; simp [Event.isGivenUp])
      rcases validateChainedLinkSampleCount_cases link.2.2 with heq | heq
      swap
      · rw [heq]
        exact (hthrown hcalled _).stands (by simp)
      rw [heq]
      dsimp only
      rw [if_neg (by simp)]
      have hfinished := hcalled.callFinishLink F link.2.1
      have hincomplete := hcalled.callFinishLink_incomplete F link.2.1
      generalize F.callFinishLink link.2.1 link.2.2 = finish at hfinished hincomplete
      obtain ⟨events, hhistory, hevents⟩ := hincomplete
      split
      · exact ⟨events, hhistory, hevents, by simp⟩
      split
      · exact ⟨events, hhistory, hevents, by simp⟩
      · rename_i hverified
        exact ih finish.2.1 (hfinished (by simpa using hverified))
    · exact .of_incomplete (by simp) hincomplete

/-- `process_decode_stream` succeeds only where the operation may end. -/
theorem processDecodeStream_stands (fuel : ℕ) (s : Stream D) {m : Machine}
    (h : Counted base asked m) :
    Stands base asked ((processDecodeStream F J fuel s m).1 = some true)
      (processDecodeStream F J fuel s m).2.2 := by
  unfold processDecodeStream
  split
  · exact processRange_stands F J fuel s h
  rename_i hunlimited
  have hlimit : asked.limit = none := by
    rw [← h.request, DecodeContext.asked_unlimited hunlimited]
  have hsame : asked.chained = m.context.decodeChainedOgg := by rw [← h.request]; rfl
  split
  · rename_i hchained
    exact processLinks_stands F J fuel s h (hsame.trans hchained)
  · rename_i hchained
    exact processToEnd_stands F J s h hlimit (hsame.trans (by simpa using hchained))

end

end JFlac.Decode
