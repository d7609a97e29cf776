import JFlac.Decode.CopyBounds

/-!
# Copies of pull and push decoding stay in bounds

The native methods only move between reachable states: opening and reading a pull session, with a
libFLAC that hands over blocks of the channel count of STREAMINFO, and a push operation with any
libFLAC. So every copy they make is one in bounds, and what would wrap around is refused.
-/

namespace JFlac.Decode

open Machine

variable {D : Type}

/-! ## Pull sessions -/

/-- Opening and reading a pull session makes callbacks for one channel count. -/
structure LibFlac.OfChannels (F : LibFlac D) (channels : ℕ) : Prop where
  metadata : ∀ d, (F.processUntilEndOfMetadata d).Requests (Callback.OfChannels channels)
  single : ∀ d, (F.processSingle d).Requests (Callback.OfChannels channels)

section Pull

variable {F : LibFlac D} {J : Jvm} {channels : UInt32}

theorem PullReachable.same {phase : Phase} {m m' : Machine} (h : PullReachable J channels phase m)
    (hcontext : m'.context = m.context) : PullReachable J channels phase m' :=
  .elsewhere phase m m' h (.inl hcontext)

/-- Each callback of a libFLAC call is one more step. -/
theorem PullReachable.call {phase : Phase} {m : Machine} (h : PullReachable J channels phase m)
    (hphase : phase ≠ .idle) (api : Api) {activity : Activity D}
    (hactivity : activity.Requests (Callback.OfChannels channels.toNat))
    (calls : List TransportCall) :
    PullReachable J channels phase (F.call J api activity calls m).2.2 := by
  have hrun : PullReachable J channels phase (activity.run (handle J) (m, calls)).2.1 :=
    Lib.Calls.run_invariant_of_requests
      (P := fun s : Machine × List TransportCall => PullReachable J channels phase s.1)
      (fun callback s hcallback hs => .callback phase s.1 hs hphase callback s.2 hcallback)
      activity hactivity h
  exact hrun.same rfl

theorem pullLoop_reachable (hF : F.OfChannels channels.toNat) (fuel : ℕ) (s : Stream D)
    {m : Machine} (h : PullReachable J channels .reading m) :
    PullReachable J channels .reading (pullLoop F J fuel s m).2.2 := by
  induction fuel generalizing s m with
  | zero => exact h
  | succ fuel ih =>
    unfold pullLoop
    split
    swap
    · exact h
    have hcall := h.call (F := F) (by decide) .processSingle (hF.single s.decoder)
      s.transportCalls
    generalize F.call J .processSingle _ _ m = single at hcall
    dsimp only
    split
    · exact hcall
    split
    · exact hcall.same rfl
    split
    · have hcount := validatePhysicalEofSampleCount_context single.2.2
      split
      · exact hcall.same hcount
      · refine .elsewhere _ _ _ hcall (.inr ?_)
        rw [withContext_context, hcount]
    · exact hcall.same rfl
    · exact ih _ hcall

/-- Reading keeps a pull session in a reachable state. -/
theorem readPullDecoderInterleaved_reachable (hF : F.OfChannels channels.toNat) (fuel : ℕ)
    (samples : List Sample) (maxFrames : ℤ) {session : Session D}
    (h : PullReachable J channels .idle session.machine) :
    PullReachable J channels .idle
      (readPullDecoderInterleaved F J fuel samples maxFrames session).session.machine := by
  unfold readPullDecoderInterleaved
  dsimp only
  split
  · exact h.same rfl
  split
  · exact h.same rfl
  split
  · exact h.same rfl
  split
  · exact h.same rfl
  rename_i hnegative hzero _ hguard
  have haccepted : Accepted session.machine.context samples maxFrames.toNat := by
    have hcontext : session.machine.enter.context = session.machine.context := rfl
    rw [hcontext] at hguard
    exact ⟨by omega, by omega, by omega, by omega⟩
  have hdrained : PullReachable J channels .reading (drainDecodePullPending
      (session.machine.enter.withContext
        (session.machine.enter.context.startPull samples maxFrames.toNat))).2 :=
    .request session.machine h samples maxFrames.toNat haccepted
  split
  · exact .returned _ hdrained
  have hloop := pullLoop_reachable hF fuel session.stream hdrained
  split
  · rename_i heq
    rw [heq] at hloop
    exact .returned _ hloop
  · rename_i heq
    rw [heq] at hloop
    exact .returned _ hloop
  · rename_i heq
    rw [heq] at hloop
    exact .returned _ hloop

/-- An opened pull session is in a reachable state. -/
theorem openPullDecoder_reachable (hF : F.OfChannels channels.toNat) {transport : Transport}
    {source : Bool} {container : ℤ} {m : Machine} {session : Session D}
    (hopen : openPullDecoder F J transport source container = (some session, m)) :
    PullReachable J channels .idle session.machine := by
  obtain ⟨source, before, decoder, calls, hopened⟩ := openPullDecoder_opened hopen
  have hopening : PullReachable J channels .opening before := .opening before source hopened.start
  have hmetadata := hopening.call (F := F) (by decide) .processUntilEndOfMetadata
    (hF.metadata decoder) calls
  have hinfo := hopened.info
  rw [hopened.context] at hinfo
  exact (PullReachable.opened _ hmetadata hinfo).same hopened.context

end Pull

/-! ## Push operations -/

section Push

variable {F : LibFlac D} {J : Jvm}

theorem PushReachable.same {m m' : Machine} (h : PushReachable J m)
    (hcontext : m'.context = m.context) : PushReachable J m' :=
  .elsewhere m m' h (by rw [hcontext])

/-- Each callback of a libFLAC call is one more step. -/
theorem PushReachable.call {m : Machine} (h : PushReachable J m) (api : Api)
    (activity : Activity D) (calls : List TransportCall) :
    PushReachable J (F.call J api activity calls m).2.2 := by
  have hrun : PushReachable J (activity.run (handle J) (m, calls)).2.1 :=
    Lib.Calls.run_invariant (P := fun s : Machine × List TransportCall => PushReachable J s.1)
      (fun callback s hs => .callback s.1 hs callback s.2) activity h
  exact hrun.same rfl

theorem PushReachable.callFinishLink {m : Machine} (h : PushReachable J m) (s : Stream D) :
    PushReachable J (F.callFinishLink s m).2.2 := by
  unfold LibFlac.callFinishLink
  generalize F.finishLink s.decoder = r
  have herrors : PushReachable J (r.1.foldl
      (fun m status => decodeErrorCallback status (m.record (.errorCallback status))) m) := by
    induction r.1 generalizing m with
    | nil => exact h
    | cons status statuses ih => exact ih (.callback m h (.error status) [])
  exact herrors.same rfl

theorem validateChainedLinkSampleCount_context (m : Machine) :
    (validateChainedLinkSampleCount m).2.context = m.context := by
  unfold validateChainedLinkSampleCount
  dsimp only
  split
  · rfl
  · split <;> rfl

theorem processRange_reachable (fuel : ℕ) (s : Stream D) {m : Machine} (h : PushReachable J m) :
    PushReachable J (processRange F J fuel s m).2.2 := by
  induction fuel generalizing s m with
  | zero => exact h
  | succ fuel ih =>
    unfold processRange
    split
    · exact h
    split
    · exact h
    have hcall := h.call (F := F) .processSingle (F.processSingle s.decoder) s.transportCalls
    generalize F.call J .processSingle _ _ m = single at hcall
    dsimp only
    split
    · exact hcall
    split
    · exact hcall
    split
    · exact hcall.same (validatePhysicalEofSampleCount_context _)
    · exact hcall
    · exact ih _ hcall

theorem processLinks_reachable (fuel : ℕ) (s : Stream D) {m : Machine} (h : PushReachable J m) :
    PushReachable J (processLinks F J fuel s m).2.2 := by
  induction fuel generalizing s m with
  | zero => exact h
  | succ fuel ih =>
    unfold processLinks
    have hcall := h.call (F := F) .processUntilEndOfLink (F.processUntilEndOfLink s.decoder)
      s.transportCalls
    generalize F.call J .processUntilEndOfLink _ _ m = link at hcall
    have hcount := hcall.same (validateChainedLinkSampleCount_context link.2.2)
    dsimp only
    split
    · exact hcall
    split
    · exact hcount
    · split
      · exact hcount
      have hfinish := hcount.callFinishLink (F := F) link.2.1
      generalize F.callFinishLink link.2.1 _ = finish at hfinish
      split
      · exact hfinish
      split
      · exact .elsewhere _ _ hfinish rfl
      · exact ih _ hfinish
    · exact hcall

theorem processToEnd_reachable (s : Stream D) {m : Machine} (h : PushReachable J m) :
    PushReachable J (processToEnd F J s m).2.2 := by
  unfold processToEnd
  have hcall := h.call (F := F) .processUntilEndOfStream (F.processUntilEndOfStream s.decoder)
    s.transportCalls
  generalize F.call J .processUntilEndOfStream _ _ m = stream at hcall
  dsimp only
  split
  · exact hcall
  split
  · exact hcall
  · exact hcall.same (validatePhysicalEofSampleCount_context _)

/-- The processing loops stay in reachable states. -/
theorem processDecodeStream_reachable (fuel : ℕ) (s : Stream D) {m : Machine}
    (h : PushReachable J m) : PushReachable J (processDecodeStream F J fuel s m).2.2 := by
  unfold processDecodeStream
  split
  · exact processRange_reachable fuel s h
  split
  · exact processLinks_reachable fuel s h
  · exact processToEnd_reachable s h

/-- A session decode from its configured context on. -/
theorem seekAndProcessSession_reachable (fuel : ℕ) (firstSample : ℤ) (recheckError : Bool)
    (s : Stream D) {m : Machine} (h : PushReachable J m) :
    PushReachable J
      (seekAndProcessSession F J fuel firstSample recheckError s m).session.machine := by
  unfold seekAndProcessSession
  have hseek := h.call (F := F) .seekAbsolute (F.seekAbsolute s.decoder firstSample.toNat)
    s.transportCalls
  generalize F.call J .seekAbsolute _ _ m = seek at hseek
  dsimp only
  split
  · exact .elsewhere _ _ hseek rfl
  have hloop := processDecodeStream_reachable (F := F) fuel seek.2.1 hseek
  generalize processDecodeStream F J fuel seek.2.1 seek.2.2 = loop at hloop
  obtain ⟨success, s', m'⟩ := loop
  cases success with
  | none => exact hloop
  | some success =>
    dsimp only
    split
    · exact .elsewhere _ _ hloop rfl
    · refine .elsewhere _ _ hloop ?_
      unfold completeSession
      dsimp only
      split
      · rw [withContext_context, callJava_context]
        rfl
      · rfl

theorem processAndFinish_reachable (fuel : ℕ) (what : String) (checkMd5 : Bool) (s : Stream D)
    {m : Machine} (h : PushReachable J m) :
    PushReachable J (processAndFinish F J fuel what checkMd5 s m).machine := by
  unfold processAndFinish
  have hloop := processDecodeStream_reachable (F := F) fuel s h
  generalize processDecodeStream F J fuel s m = loop at hloop
  obtain ⟨success, s', m'⟩ := loop
  cases success with
  | none => exact hloop
  | some success =>
    refine hloop.same ?_
    dsimp only
    unfold finishDecode
    dsimp only
    split
    · rw [callJava_context, reportFailure_context]
      rfl
    · rw [reportFailure_context]
      rfl

theorem abandonDecode_reachable (failure : String) (s : Stream D) {m : Machine}
    (h : PushReachable J m) : PushReachable J (abandonDecode F failure s m).machine :=
  h.same (reportIf_context _ _ m)

theorem seekAndProcess_reachable (fuel : ℕ) (what : String) (request : DecodeRequest)
    (s : Stream D) {m : Machine} (h : PushReachable J m) :
    PushReachable J (seekAndProcess F J fuel what request s m).machine := by
  have hseek : PushReachable J (seekToFirstSample F J request.firstSample s m).2.2 := by
    unfold seekToFirstSample
    split
    · exact h
    · exact h.call _ _ _
  unfold seekAndProcess
  dsimp only
  split
  · exact abandonDecode_reachable _ _ hseek
  · exact processAndFinish_reachable fuel what request.checkMd5 _ hseek

/-- A one-shot decode from its prepared context on. -/
theorem decodePrepared_reachable (fuel : ℕ) (transport : Transport) (request : DecodeRequest)
    (calls : List TransportCall) {m : Machine} (hpush : m.context.pullMode = false)
    (hvalid : request.rangeLimited = true →
      validateDecodeRequest request.firstSample request.rangeLimited request.maxFrames = none) :
    PushReachable J (decodePrepared F J fuel transport request calls m).machine := by
  have hconfigured := PushReachable.configured (J := J) m hpush request.firstSample
    request.maxFrames request.rangeLimited hvalid
  unfold decodePrepared
  generalize m.withContext (m.context.configureDecodeRange request.firstSample
    request.rangeLimited request.maxFrames) = m₁ at hconfigured
  dsimp only
  split
  · exact hconfigured.same rfl
  rename_i decoder _
  have hchaining : (configureDecoderChaining F request.container request.decodeChainedOgg decoder
      m₁).2.context = m₁.context := by
    unfold configureDecoderChaining
    split
    · rfl
    split
    · rfl
    · split <;> rfl
  generalize configureDecoderChaining F request.container request.decodeChainedOgg decoder m₁ =
    chained at hchaining
  obtain ⟨chainedDecoder, m₂⟩ := chained
  have hchained : PushReachable J m₂ := hconfigured.same hchaining
  cases chainedDecoder with
  | none => exact hchained
  | some decoder =>
    dsimp only
    have hmd5 : (configureDecoderMd5Checking F request.checkMd5 decoder m₂).2.context =
        m₂.context := by
      unfold configureDecoderMd5Checking
      split
      · rfl
      · split <;> rfl
    generalize configureDecoderMd5Checking F request.checkMd5 decoder m₂ = checked at hmd5
    obtain ⟨checkedDecoder, m₃⟩ := checked
    have hchecked : PushReachable J m₃ := hchained.same hmd5
    cases checkedDecoder with
    | none => exact hchecked
    | some decoder =>
      dsimp only
      split
      · exact hchecked.same rfl
      rename_i decoder _
      unfold decodeInitialised
      split
      swap
      · exact processAndFinish_reachable fuel _ request.checkMd5 _ hchecked
      have hmetadata := hchecked.call (F := F) .processUntilEndOfMetadata
        (F.processUntilEndOfMetadata decoder) calls
      generalize F.call J .processUntilEndOfMetadata _ calls m₃ = metadata at hmetadata
      dsimp only
      split
      · exact abandonDecode_reachable _ _ hmetadata
      split
      · exact hmetadata.same rfl
      split
      · refine hmetadata.same ?_
        unfold completeEmptyRange
        dsimp only
        split
        · rw [callJava_context]
          rfl
        · rfl
      · exact seekAndProcess_reachable fuel _ request _ hmetadata

theorem prepareDecodeContext_reachable {m : Machine} (h : PushReachable J m) :
    PushReachable J (prepareDecodeContext J m).2 := by
  unfold prepareDecodeContext callJavaObject
  dsimp only
  split
  · exact h.same (callJava_context J _ m)
  · exact .unlimited _ (by rw [withContext_context, resolve_context, callJava_context]
                           exact h.counters.push) rfl

/-- A bounded session decode keeps its session in a reachable state. -/
theorem decodeDecoderRange_reachable (fuel : ℕ) (firstSample maxFrames : ℤ) (consumer : Bool)
    {session : Session D} (h : PushReachable J session.machine) :
    PushReachable J
      (decodeDecoderRange F J fuel firstSample maxFrames consumer session).session.machine := by
  have henter : PushReachable J session.machine.enter := h.same rfl
  unfold decodeDecoderRange
  dsimp only
  split
  · exact henter.same rfl
  split
  · exact henter.same rfl
  rename_i hvalid
  split
  · exact henter.same rfl
  have hprepared := prepareDecodeContext_reachable henter
  generalize prepareDecodeContext J session.machine.enter = prepared at hprepared
  split
  · exact hprepared
  have hconfigured : PushReachable J (prepared.2.withContext
      (prepared.2.context.sessionPrepared.configureDecodeRange firstSample true maxFrames)) :=
    .configured (prepared.2.withContext prepared.2.context.sessionPrepared) hprepared.counters.push
      firstSample maxFrames true fun _ => hvalid
  split
  · exact .elsewhere _ _ hconfigured rfl
  split
  · refine .elsewhere _ _ hconfigured ?_
    unfold completeSession
    dsimp only
    split
    · rw [withContext_context, callJava_context]
      rfl
    · rfl
  · exact seekAndProcessSession_reachable fuel firstSample false session.stream hconfigured

end Push

/-! ## In bounds -/

/-- A block that would wrap around is refused before anything is stored or copied, with an
exception unless one is pending or an error was reported. -/
structure Refused (m : Machine) (r : WriteStatus × Machine) : Prop where
  status : r.1 = .abort
  context : r.2.context = m.context
  raised : m.pending = none → m.context.sawError = false → r.2.pending ≠ none

/-- What a pull read does with its request: it is refused with the array and the context as they
were, or its first copy is in bounds. -/
inductive RequestStep (F : LibFlac D) (J : Jvm) (fuel : ℕ) (s : Stream D) (samples : List Sample)
    (maxFrames : ℤ) (m : Machine) : Prop
  | refused (hguard : ¬ Accepted m.context samples maxFrames.toNat)
      (heq : readPullDecoderInterleaved F J fuel samples maxFrames ⟨s, m⟩ =
        ⟨some 0, samples, ⟨s, m.enter.throwIllegalArgument pullBufferMessage⟩⟩)
  | accepted (hguard : Accepted m.context samples maxFrames.toNat)
      (hdrain : DrainStep (m.enter.withContext (m.context.startPull samples maxFrames.toNat))
        (drainDecodePullPending
          (m.enter.withContext (m.context.startPull samples maxFrames.toNat))))

theorem BlockStep.refused_of_not_fits {frame : Frame} {m : Machine} {r : WriteStatus × Machine}
    (h : BlockStep frame m r) (hfits : ¬ frame.Fits) : Refused m r := by
  cases h with
  | stopped hstopped =>
    refine ⟨rfl, rfl, fun hnone herror => ?_⟩
    rcases hstopped with hpending | hsaw
    · simp [hnone] at hpending
    · simp [herror] at hsaw
  | refused m' hcontext hraised => exact ⟨rfl, hcontext, fun _ _ => hraised⟩
  | taken hfits' => exact absurd hfits' hfits

theorem PushStep.refused_of_large {frame : Frame} {m : Machine} {r : WriteStatus × Machine}
    (h : PushStep frame m r) {frames : ℕ}
    (houtput : m.context.outputFrames frame.blocksize = some frames)
    (hlarge : intMax < frame.channels * frames) : Refused m r := by
  cases h with
  | stopped hstopped =>
    refine ⟨rfl, rfl, fun hnone herror => ?_⟩
    rcases hstopped with hpending | hsaw
    · simp [hnone] at hpending
    · simp [herror] at hsaw
  | outside hnone =>
    rw [hnone] at houtput
    cases houtput
  | refused m' hcontext hraised => exact ⟨rfl, hcontext, fun _ _ => hraised⟩
  | copied frames' houtput' _ hsize =>
    obtain rfl : frames = frames' := Option.some.inj (houtput.symm.trans houtput')
    omega

theorem requestStep {J : Jvm} {channels : UInt32} {m : Machine}
    (h : PullReachable J channels .idle m) (F : LibFlac D) (fuel : ℕ) (s : Stream D)
    (samples : List Sample) {maxFrames : ℤ} (hpositive : 1 ≤ maxFrames) :
    RequestStep F J fuel s samples maxFrames m := by
  have hstate := h.state
  by_cases hguard : Accepted m.context samples maxFrames.toNat
  · exact .accepted hguard (drainDecodePullPending_request hstate hguard).1
  · refine .refused hguard ?_
    have hwrong : m.enter.context.streamInfo.channels = 0 ∨
        intMax < maxFrames.toNat * m.enter.context.streamInfo.channels ∨
        samples.length < maxFrames.toNat * m.enter.context.streamInfo.channels := by
      have hcontext : m.enter.context = m.context := rfl
      rw [hcontext]
      by_contra hright
      exact hguard ⟨by omega, by omega, by omega, by omega⟩
    have hpull : m.enter.context.pullMode = true := hstate.counters.pull
    have hinfo : m.enter.context.sawStreamInfo = true := hstate.phase
    unfold readPullDecoderInterleaved
    dsimp only
    rw [if_neg (by omega), if_neg (by omega), if_neg (by simp [hpull, hinfo]), if_pos hwrong]

/-- The frame-sample products of the guards are computed in 64 bits, where they fit. -/
theorem guardProduct_lt (channels : UInt32) {frames : ℕ} (hframes : frames < 4294967296) :
    frames * channels.toNat < 18446744073709551616 := by
  have hchannels : channels.toNat < 4294967296 := channels.toNat_lt
  calc frames * channels.toNat ≤ 4294967295 * 4294967295 :=
        Nat.mul_le_mul (by omega) (by omega)
    _ < 18446744073709551616 := by decide

/-- In every state of a pull session between two reads a request is refused, or its first copy is
in bounds; in every state of a read a block of any size is refused, or its copies are in bounds;
and the same holds of a block in every state of a push operation. -/
theorem pcmCopies_inBounds {J : Jvm} {channels : UInt32} {m m' m'' : Machine} {phase : Phase}
    (hidle : PullReachable J channels .idle m) (hreading : PullReachable J channels phase m')
    (hphase : phase ≠ .idle) (hpush : PushReachable J m'') :
    (∀ (F : LibFlac D) (fuel : ℕ) (s : Stream D) (samples : List Sample) (maxFrames : ℤ),
      1 ≤ maxFrames → maxFrames ≤ intMax →
        maxFrames.toNat * m.context.streamInfo.channels < 18446744073709551616 ∧
        RequestStep F J fuel s samples maxFrames m ∧
        (F.OfChannels channels.toNat → PullReachable J channels .idle
          (readPullDecoderInterleaved F J fuel samples maxFrames ⟨s, m⟩).session.machine)) ∧
    (∀ frame : Frame, frame.channels = channels.toNat →
      m'.context.pullWrittenFrames ≤ m'.context.pullRequestedFrames ∧
      frame.blocksize * frame.channels < 18446744073709551616 ∧
      BlockStep frame m' (decodeWriteCallback J frame m') ∧
      (¬ frame.Fits → Refused m' (decodeWriteCallback J frame m'))) ∧
    (∀ frame : Frame,
      (m''.context.rangeLimited = true →
        m''.context.emittedFrames ≤ m''.context.maxFrames ∧
        sub64 m''.context.maxFrames m''.context.emittedFrames =
          m''.context.maxFrames - m''.context.emittedFrames) ∧
      PushStep frame m'' (decodeWriteCallback J frame m'') ∧
      (∀ frames, m''.context.outputFrames frame.blocksize = some frames →
        intMax < frame.channels * frames → Refused m'' (decodeWriteCallback J frame m''))) := by
  have hstate := hreading.state
  have hrange := hpush.counters
  refine ⟨?_, ?_, ?_⟩
  · intro F fuel s samples maxFrames hpositive hmax
    have hinfo := hidle.state.counters.info hidle.state.phase
    simp only [intMax] at hmax
    refine ⟨?_, requestStep hidle F fuel s samples hpositive, fun hF => ?_⟩
    · rw [hinfo]
      exact guardProduct_lt channels (by omega)
    · have hsession : PullReachable J channels .idle (Session.mk s m).machine := hidle
      exact readPullDecoderInterleaved_reachable hF fuel samples maxFrames hsession
  · intro frame hchannels
    have hblock := (decodeWriteCallback_block J hstate hphase hchannels).1
    refine ⟨hstate.counters.written, ?_, hblock, hblock.refused_of_not_fits⟩
    rw [hchannels]
    exact guardProduct_lt channels frame.blocksize_lt
  · intro frame
    have hblock := decodeWriteCallback_push J frame hrange
    refine ⟨fun hlimited => ?_, hblock, fun frames houtput hlarge =>
      hblock.refused_of_large houtput hlarge⟩
    have hemitted := hrange.emitted hlimited
    have hmax := hrange.range hlimited
    simp only [longMax] at hmax
    exact ⟨hemitted, sub64_of_le hemitted (by omega)⟩

/-- A stereo block of `2 ^ 30` frames, one sample more than a JVM array holds. -/
def oversizedBlock : Frame := silentFrame 2 1073741824 two_lt_uint32 (by decide)

/-- A pull session over a stereo stream, after its metadata. -/
def stereoIdle : Machine :=
  (handle quietJvm (.metadata (.streamInfo { StreamInfo.zero with channels := 2 }))
    (Machine.start.withContext ((openContext true).withSource DecodeContext.zero.source), [])).2.1

/-- The session while it reads three frames. -/
def stereoReading : Machine :=
  (drainDecodePullPending
    (stereoIdle.enter.withContext (stereoIdle.context.startPull (List.replicate 6 0) 3))).2

/-- A push operation over a range of five frames. -/
def fiveFrames : Machine :=
  Machine.start.withContext (DecodeContext.zero.configureDecodeRange 0 true 5)

theorem pcmCopies_inBounds_stereo :
    (decodeWriteCallback quietJvm (silentFrame 2 4 (by decide) (by decide)) stereoReading).1 =
      .cont ∧
    RequestStep (scripted []) quietJvm 1 ⟨⟨[], .other⟩, []⟩ (List.replicate 6 0) 1073741824
      stereoIdle ∧
    Refused stereoReading (decodeWriteCallback quietJvm oversizedBlock stereoReading) ∧
    PushStep oversizedBlock fiveFrames (decodeWriteCallback quietJvm oversizedBlock fiveFrames) := by
  have hidle : PullReachable quietJvm 2 .idle stereoIdle :=
    .opened _ (.callback _ _ (.opening _ _ rfl) (by decide) _ [] rfl) rfl
  have hreading : PullReachable quietJvm 2 .reading stereoReading :=
    .request stereoIdle hidle (List.replicate 6 0) 3
      ⟨by decide, by decide, by decide, by decide⟩
  have hpush : PushReachable quietJvm fiveFrames :=
    .configured Machine.start rfl 0 5 true fun _ => by decide
  have hbounds := pcmCopies_inBounds (D := Scripted) hidle hreading (by decide) hpush
  have hlarge : ¬ oversizedBlock.Fits := fun hfits => absurd hfits.size (by decide)
  exact ⟨by decide +kernel,
    (hbounds.1 (scripted []) 1 ⟨⟨[], .other⟩, []⟩ (List.replicate 6 0) 1073741824 (by decide)
      (by decide)).2.1,
    (hbounds.2.1 oversizedBlock rfl).2.2.2 hlarge, (hbounds.2.2 oversizedBlock).2.1⟩

end JFlac.Decode
