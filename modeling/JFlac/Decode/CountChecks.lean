import JFlac.Decode.FrameCounts
import JFlac.Decode.WholeStreams

/-!
# A decode that completes and the JVM check

A decode that calls `onComplete` should pass the frame-count check of the JVM model, and a decode
that does not pass it should have raised a `FlacDecodeException`. Every entry point does so unless
libFLAC hands over frames behind the declared end that lie inside the request.
-/

namespace JFlac.Decode

open Machine Lib

variable {D : Type}

/-- What is promised of an operation that has heard `events`. -/
structure ChecksAgree (info : Metadata.FlacStreamInfo) (request : SessionRequest)
    (events : List Event) (m : Machine) : Prop where
  completed : (∃ e ∈ events, e.isComplete = true) →
    Pcm.validateDecodedFrameCount info request.firstSample request.maxFrames?
      (framesHeard events) = .ok ()
  refused : Pcm.validateDecodedFrameCount info request.firstSample request.maxFrames?
      (framesHeard events) ≠ .ok () → m.Raised

/-- Of the rows that are handed over, those that lie inside the request. -/
def SessionRequest.within (rows : List (List Sample)) : SessionRequest → List (List Sample)
  | .toEnd _ => rows
  | .range _ maxFrames => rows.take maxFrames.toNat

/-- The promise depends on how the operation ended. -/
theorem EndsWith.promise_iff {base events : List Event} {m : Machine} {ending : Ending}
    (h : EndsWith base m ending) (hhistory : m.history = base ++ events)
    {info : Metadata.FlacStreamInfo} {request : SessionRequest} :
    ChecksAgree info request events m ↔
      (ending.1 = true → Pcm.validateDecodedFrameCount info request.firstSample
        request.maxFrames? ending.2.length = .ok ()) := by
  obtain ⟨events', hhistory', hended⟩ := h
  obtain rfl : events = events' := List.append_cancel_left (hhistory.symm.trans hhistory')
  obtain ⟨success, rows⟩ := ending
  cases success with
  | true =>
    obtain ⟨hnone, hserved⟩ : m.pending = none ∧ Served events rows := hended
    have hquiet : ¬ m.Raised := by
      rintro ⟨message, hraised⟩
      rw [hnone] at hraised
      cases hraised
    have hcomplete : ∃ e ∈ events, e.isComplete = true := by
      obtain ⟨before, rfl, -⟩ := hserved
      exact ⟨.java .onComplete .returned, by simp, rfl⟩
    rw [← hserved.framesHeard]
    refine ⟨fun hagree _ => hagree.completed hcomplete, fun hok => ⟨fun _ => hok rfl, ?_⟩⟩
    exact fun hrefused => absurd (hok rfl) hrefused
  | false =>
    obtain ⟨hraised, hheard⟩ : m.Raised ∧ Heard events rows := hended
    refine iff_of_true ⟨?_, fun _ => hraised⟩ fun h => absurd h Bool.false_ne_true
    rintro ⟨e, he, hcomplete⟩
    rw [hheard.2 e he] at hcomplete
    cases hcomplete

/-! ## Frames behind the declared end -/

namespace SessionRequest

variable {total : ℕ} {info : Metadata.FlacStreamInfo}

/-- The JVM check refuses an overrun. -/
theorem Overruns.refused {request : SessionRequest} {frames : ℕ}
    (h : request.Overruns total frames) (htotal : info.totalSamples = total) :
    Pcm.validateDecodedFrameCount info request.firstSample request.maxFrames? frames ≠ .ok () := by
  obtain ⟨hpos, hinside, hbehind⟩ := h
  rw [Ne, validateDecodedFrameCount_eq_ok, htotal]
  rintro ⟨-, hunknown | ⟨-, hcount⟩⟩
  · omega
  cases request with
  | toEnd firstSample =>
    dsimp only [SessionRequest.firstSample, SessionRequest.maxFrames?, Option.elim] at *
    omega
  | range firstSample maxFrames =>
    dsimp only [SessionRequest.firstSample, SessionRequest.maxFrames?, Option.elim] at *
    omega

theorem not_overruns_nil (request : SessionRequest) :
    ¬ request.Overruns total (request.within []).length := by
  have hnil : request.within [] = [] := by
    cases request with
    | toEnd firstSample => rfl
    | range firstSample maxFrames => exact List.take_nil
  rw [hnil]
  unfold Overruns
  simp
  omega

/-- Only the rows inside the request can run over. -/
theorem ending_overruns_iff (request : SessionRequest) (rows : List (List Sample)) :
    request.Overruns total (request.ending total (some rows)).2.length ↔
      request.Overruns total (request.within rows).length := by
  by_cases hinside : 0 < total ∧ request.firstSample < total
  swap
  · exact iff_of_false (fun h => hinside ⟨h.1, h.2.1⟩) fun h => hinside ⟨h.1, h.2.1⟩
  have hending : (request.ending total (some rows)).2 = request.within rows := by
    cases request with
    | toEnd firstSample =>
      dsimp only [SessionRequest.firstSample] at hinside
      rw [ending_toEnd, if_neg (by omega), if_neg (by omega)]
      rfl
    | range firstSample maxFrames =>
      dsimp only [SessionRequest.firstSample] at hinside
      rw [ending_range, if_neg (by omega)]
      by_cases hzero : maxFrames = 0
      · rw [if_pos (.inl hzero), hzero]
        rfl
      · rw [if_neg (by omega)]
        rfl
  rw [hending]

/-- A request that is compared with the declared end is accepted by the JVM check when it completes,
unless libFLAC runs over. -/
theorem ending_accepted_iff {request : SessionRequest} (hvalid : request.Valid)
    (htotal : info.totalSamples = total) (found : Option (List (List Sample))) :
    ((request.ending total found).1 = true →
        Pcm.validateDecodedFrameCount info request.firstSample request.maxFrames?
          (request.ending total found).2.length = .ok ()) ↔
      ¬ request.Overruns total (request.within (found.getD [])).length := by
  have haccepted : ∀ rows, ((request.ending total (some rows)).1 = true →
        Pcm.validateDecodedFrameCount info request.firstSample request.maxFrames?
          (request.ending total (some rows)).2.length = .ok ()) ↔
      ¬ request.Overruns total (request.within rows).length := by
    intro rows
    have hagrees := ending_agrees_iff hvalid htotal rows
    rw [← ending_overruns_iff] at *
    constructor
    · intro hok hover
      exact hagrees.mp ⟨hok, fun h => absurd h (hover.refused htotal)⟩ hover
    · exact fun hover => (hagrees.mpr hover).mp
  cases found with
  | some rows => exact haccepted rows
  | none =>
    -- where nothing is found, a request completes only if it is empty
    refine iff_of_true (fun hcompletes => ?_) request.not_overruns_nil
    have hempty : request.ending total none = request.ending total (some []) := by
      unfold ending at hcompletes ⊢
      split
      · rfl
      split
      · rfl
      · rename_i hbehind hplays
        rw [if_neg hbehind, if_neg hplays] at hcompletes
        cases hcompletes
    rw [hempty] at hcompletes ⊢
    exact (haccepted []).mpr request.not_overruns_nil hcompletes

/-- So is a whole stream that was played to its end. -/
theorem whole_accepted_iff {success finished : Prop} {state : DecoderState}
    (htotal : info.totalSamples = total) (hstate : state = .endOfStream)
    {rows : List (List Sample)} :
    (success ∧ finished ∧ (state = .endOfStream → total ≤ rows.length) →
        Pcm.validateDecodedFrameCount info 0 none rows.length = .ok ()) ↔
      ¬ ((success ∧ finished) ∧ (toEnd 0).Overruns total ((toEnd 0).within rows).length) := by
  rw [validateDecodedFrameCount_eq_ok, htotal, ← and_assoc, and_imp, not_and]
  apply imp_congr_right
  intro _
  unfold Overruns within
  dsimp only [SessionRequest.firstSample, Option.elim]
  simp only [hstate, true_implies, Option.mem_def, reduceCtorEq, false_implies, implies_true,
    true_and]
  omega

/-- So is a request on a session: libFLAC finds nothing from the declared end on. -/
theorem sessionEnding_accepted_iff {request : SessionRequest} (hvalid : request.Valid)
    (htotal : info.totalSamples = total) {found : Option (List (List Sample))}
    (hbehind : 0 < total → total ≤ request.firstSample.toNat → found = none) :
    ((request.sessionEnding total found).1 = true →
        Pcm.validateDecodedFrameCount info request.firstSample request.maxFrames?
          (request.sessionEnding total found).2.length = .ok ()) ↔
      ¬ request.Overruns total (request.within (found.getD [])).length := by
  cases request with
  | range firstSample maxFrames => exact ending_accepted_iff hvalid htotal found
  | toEnd firstSample =>
    by_cases hend : 0 < total ∧ total ≤ firstSample.toNat
    · rw [hbehind hend.1 hend.2]
      exact iff_of_true (fun h => absurd h Bool.false_ne_true) (not_overruns_nil _)
    · have hending : (toEnd firstSample).sessionEnding total found =
          (toEnd firstSample).ending total found := by
        rw [ending_toEnd, if_neg (by omega), if_neg (by omega)]
        rfl
      rw [hending]
      exact ending_accepted_iff hvalid htotal found

end SessionRequest

/-! ## All entry points -/

/-- `request` was made of a stream that declares `info` and of which libFLAC hands over `rows` from
the first requested sample to END_OF_STREAM. The operation heard `events` and left `m`; `success`
says that libFLAC's calls succeeded at the end. -/
inductive Decodes (F : LibFlac D) (J : Jvm) (info : StreamInfo) :
    SessionRequest → List (List Sample) → Bool → List Event → Machine → Prop
  | whole (input : WholeSource) (hstarts : input.Starts J) {container : ℤ}
      (hcontainer : isValidContainer container = true) {checkMd5 : Bool} {decoder : D}
      (hconfigures : F.Configures input.transport (.whole container checkMd5 false) decoder)
      {others : ℕ} {blocks : List Frame} (hfits : ∀ b ∈ blocks, b.Fits) {success : Bool}
      {s : Stream D}
      (hdelivers : Delivers J input.fields (F.processUntilEndOfStream decoder) input.calls
        ((.streamInfo info :: List.replicate others .other).map .metadata ++ blocks.map .pcm)
        success s)
      (hstate : F.getState s.decoder = .endOfStream) (fuel : ℕ) :
      Decodes F J info (.toEnd 0) (rowsOf blocks) (success && F.finish s.decoder)
        (input.decode F J fuel container checkMd5 false).machine.history
        (input.decode F J fuel container checkMd5 false).machine
  | once {At : List Frame → Stream D → Prop} (hfinish : ∀ d, F.finish d = true)
      (input : SessionSource) (hstarts : input.Starts J) {container : ℤ}
      (hcontainer : isValidContainer container = true) {s : Stream D}
      (hopens : F.Opens J input.fields input.transport container input.calls info s)
      (hreads : F.Reads J input.fields At) {request : SessionRequest}
      (hvalid : request.Valid) {found : Option (List Frame)}
      (hfrom : info.totalSamples = 0 ∨ request.firstSample.toNat < info.totalSamples →
        F.StartsFrom J input.fields At s request.firstSample found)
      {fuel : ℕ} (hfuel : ∀ blocks ∈ found, blocks.length < fuel)
      (hfits : ∀ blocks ∈ found, ∀ b ∈ blocks, b.Fits) :
      Decodes F J info request ((found.map rowsOf).getD []) true
        (request.decodeOnce F J fuel container input).machine.history
        (request.decodeOnce F J fuel container input).machine
  | session {At : List Frame → Stream D → Prop} {source : Source} (hreads : F.Reads J source At)
      {session : Session D} (hready : SessionReady At source info.totalSamples session)
      {request : SessionRequest} (hvalid : request.Valid) {found : Option (List Frame)}
      (hseeks : F.SeeksTo J source At session.stream request.firstSample.toNat found)
      (hbehind : 0 < info.totalSamples → info.totalSamples ≤ request.firstSample.toNat →
        found = none)
      {fuel : ℕ} (hfuel : ∀ blocks ∈ found, blocks.length < fuel)
      (hfits : ∀ blocks ∈ found, ∀ b ∈ blocks, b.Fits) {events : List Event}
      (hevents : (request.decode F J fuel session).session.machine.history =
        session.machine.history ++ events) :
      Decodes F J info request ((found.map rowsOf).getD []) true events
        (request.decode F J fuel session).session.machine

section
variable {F : LibFlac D} {J : Jvm}

/-- The JVM check accepts what completes natively, and what it refuses was reported natively, unless
libFLAC runs over the declared end inside the request. -/
theorem checksAgree_iff (hquiet : J.Quiet) {info : StreamInfo} {request : SessionRequest}
    {rows : List (List Sample)} {success : Bool} {events : List Event} {m : Machine}
    (h : Decodes F J info request rows success events m) {info' : Metadata.FlacStreamInfo}
    (htotal : info'.totalSamples = info.totalSamples) :
    ChecksAgree info' request events m ↔
      ¬ (success = true ∧ request.Overruns info.totalSamples (request.within rows).length) := by
  cases h with
  | whole input hstarts hcontainer hconfigures hfits hdelivers hstate fuel =>
    obtain ⟨m, what, hdecode, hm⟩ :=
      input.decode_initialised hquiet hstarts hcontainer hconfigures fuel
    rw [hdecode]
    have hends := (Outcome.ends_iff.mp (hm.whole_ends hquiet hfits hdelivers fuel what)).2
    rw [hends.promise_iff rfl, decide_eq_true_iff, Bool.and_eq_true]
    exact SessionRequest.whole_accepted_iff htotal hstate
  | once hfinish input hstarts hcontainer hopens hreads hvalid hfrom hfuel hfits =>
    have hends := (Outcome.ends_iff.mp (decodeOnce_ends hquiet hfinish input hstarts hcontainer
      hopens hreads hvalid hfrom hfuel hfits)).2
    rw [hends.promise_iff rfl, SessionRequest.ending_accepted_iff hvalid htotal,
      and_iff_right rfl]
  | session hreads hready hvalid hseeks hbehind hfuel hfits hevents =>
    have hends := SessionRequest.decode_ends hquiet hreads hready hfuel hfits hvalid hseeks
    rw [hends.ended.promise_iff hevents, SessionRequest.sessionEnding_accepted_iff hvalid htotal,
      and_iff_right rfl]
    intro hpos hle
    rw [hbehind hpos hle]
    rfl

/-- The second of two frames, from a channel. -/
theorem checksAgree_iff_secondFrame :
    ChecksAgree (monoJavaInfo 2) (.range 1 1)
        ((SessionRequest.range 1 1).decodeOnce (scriptedReader (monoInfo 2) twoBlocks) quietJvm 3 0
          (.channel 0)).machine.history
        ((SessionRequest.range 1 1).decodeOnce (scriptedReader (monoInfo 2) twoBlocks) quietJvm 3 0
          (.channel 0)).machine ↔
      ¬ (true = true ∧ (SessionRequest.range 1 1).Overruns 2
        ((SessionRequest.range 1 1).within (rowsOf (twoBlocks.drop 1))).length) := by
  have hvalid : (SessionRequest.range 1 1).Valid := by
    refine ⟨by decide, ?_⟩
    rintro n ⟨⟩
    decide
  have hfrom : (scriptedReader (monoInfo 2) twoBlocks).StartsFrom quietJvm (channelSource 0)
      (fun rest s => s.decoder.scripts = rest.map Script.block)
      ⟨⟨twoBlocks.map Script.block, .other⟩, (SessionSource.channel 0).calls⟩ 1
      (some (twoBlocks.drop 1)) := by
    obtain ⟨s', hdelivers, hat⟩ :=
      (scriptedReader_seekable (monoInfo 2) twoBlocks quietJvm (channelSource 0)).seek twoBlocks
        ⟨⟨twoBlocks.map Script.block, .other⟩, (SessionSource.channel 0).calls⟩ 1 _ _ rfl rfl
    unfold LibFlac.StartsFrom LibFlac.PlaysFrom
    dsimp only
    rw [if_neg (by decide)]
    exact ⟨_, _, s', rfl, hdelivers, hat⟩
  exact checksAgree_iff quietJvm_quiet
    (.once (fun _ => rfl) (.channel 0) ⟨by decide, [], rfl⟩ rfl
      (scriptedReader_opens (monoInfo 2) twoBlocks _ _ _ _ _)
      (scriptedReader_reads (monoInfo 2) twoBlocks _ _) hvalid (fun _ => hfrom)
      (by decide) (by simpa using fun b hb => twoBlocks_fits b (List.mem_of_mem_tail hb))) rfl

/-- A file that declares one frame and has two: the native decode completes, the JVM check throws. -/
theorem decodeOnce_longer_refused :
    let decoded := ((SessionRequest.toEnd 0).decodeOnce (scriptedReader (monoInfo 1) twoBlocks)
      quietJvm 3 0 .file).machine
    (∃ e ∈ decoded.history, e.isComplete = true) ∧ decoded.pending = none ∧
      Pcm.validateDecodedFrameCount (monoJavaInfo 1) 0 none (framesHeard decoded.history) =
        .error (.illegalStateException
          "Decoded frame count 2 does not match expected frame count 1.") := by
  have hplays : (scriptedReader (monoInfo 1) twoBlocks).PlaysFrom quietJvm
      SessionSource.file.fields (fun rest s => s.decoder.scripts = rest.map Script.block)
      ⟨⟨twoBlocks.map Script.block, .other⟩, SessionSource.file.calls⟩ 0 twoBlocks := by
    unfold LibFlac.PlaysFrom
    exact (if_pos rfl).mpr rfl
  have hends := decodeOnce_ends quietJvm_quiet (fun _ => rfl) .file trivial
    (show isValidContainer 0 = true from rfl) (scriptedReader_opens (monoInfo 1) twoBlocks _ _ _ _ _)
    (scriptedReader_reads (monoInfo 1) twoBlocks _ _)
    (show (SessionRequest.toEnd 0).Valid from ⟨by decide, by simp [SessionRequest.maxFrames?]⟩)
    (fun _ => show LibFlac.StartsFrom _ _ _ _ _ _ (some twoBlocks) from hplays)
    (show ∀ blocks ∈ some twoBlocks, blocks.length < 3 by decide) (by simpa using twoBlocks_fits)
  intro decoded
  have hserved : decoded.pending = none ∧ Served decoded.history (rowsOf twoBlocks) := hends.2
  refine ⟨?_, hserved.1, ?_⟩
  · obtain ⟨before, hhistory, -⟩ := hserved.2
    exact ⟨.java .onComplete .returned, by rw [hhistory]; simp, rfl⟩
  · rw [hserved.2.framesHeard]
    rfl

end

end JFlac.Decode
