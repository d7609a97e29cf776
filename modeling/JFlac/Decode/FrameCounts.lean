import JFlac.Decode.OneShotRanges
import JFlac.Pcm.Views

/-!
# The two frame-count checks

At the end of a stream the native code compares the frames it has emitted with the total that
STREAMINFO declares, and the JVM repeats the check on the frames the consumer has received. The
native check accepts a stream that goes on behind its declared end, the JVM check does not; on all
other streams the two agree.
-/

namespace JFlac.Decode

open Machine Lib

variable {D : Type}

/-! ## Frames received -/

/-- The number of frames the consumer received. -/
def framesHeard (events : List Event) : ℕ := ((events.filterMap Event.chunk?).map Prod.snd).sum

theorem HandsOver.framesHeard {events : List Event} {rows : List (List Sample)}
    (h : HandsOver events rows) : framesHeard events = rows.length := by
  obtain ⟨pieces, hchunks, -, rfl⟩ := h
  unfold Decode.framesHeard
  rw [hchunks, List.map_map, List.length_flatten]
  rfl

theorem Served.framesHeard {events : List Event} {rows : List (List Sample)}
    (h : Served events rows) : framesHeard events = rows.length := by
  obtain ⟨before, rfl, hheard⟩ := h
  have hcomplete : HandsOver [.java .onComplete .returned] [] := .nil (by simp [Event.chunk?])
  have hall := (hheard.1.append hcomplete).framesHeard
  rwa [List.append_nil] at hall

/-- However it ended, a decode delivered what its end says. -/
theorem Outcome.Ends.framesHeard {outcome : Outcome} {success : Bool} {rows : List (List Sample)}
    (h : outcome.Ends success rows) :
    framesHeard outcome.machine.history = rows.length ∧
      (outcome.machine.pending = none ↔ success = true) := by
  obtain ⟨-, hended⟩ := h
  cases success with
  | true =>
    rw [if_pos rfl] at hended
    exact ⟨hended.2.framesHeard, iff_of_true hended.1 rfl⟩
  | false =>
    rw [if_neg (by simp)] at hended
    obtain ⟨⟨message, hpending⟩, hheard⟩ := hended
    exact ⟨hheard.1.framesHeard, iff_of_false (by rw [hpending]; simp) (by simp)⟩

/-! ## The JVM check -/

/-- What the JVM check accepts. -/
theorem validateDecodedFrameCount_eq_ok {info : Metadata.FlacStreamInfo} {firstSample : ℤ}
    {maxFrames : Option ℤ} {totalFrames : ℤ} :
    Pcm.validateDecodedFrameCount info firstSample maxFrames totalFrames = .ok () ↔
      (∀ n ∈ maxFrames, totalFrames ≤ n) ∧
        (info.totalSamples ≤ 0 ∨ (firstSample ≤ info.totalSamples ∧
          maxFrames.elim (info.totalSamples - firstSample)
            (min · (info.totalSamples - firstSample)) = totalFrames)) := by
  have hbound : maxFrames.all (totalFrames ≤ ·) = true ↔ ∀ n ∈ maxFrames, totalFrames ≤ n := by
    cases maxFrames <;> simp
  unfold Pcm.validateDecodedFrameCount
  rw [unit_bind_eq_ok_iff, Pcm.check_eq_ok, hbound]
  apply and_congr_right
  intro _
  split
  · rename_i hunknown
    exact iff_of_true rfl (.inl hunknown)
  · rename_i hknown
    rw [unit_bind_eq_ok_iff, Pcm.check_eq_ok, Pcm.check_eq_ok, sub_nonneg]
    exact (or_iff_right hknown).symm

/-! ## Agreement -/

/-- libFLAC handed over frames behind the declared end, and they lie inside the request. -/
def SessionRequest.Overruns (total : ℕ) (request : SessionRequest) (frames : ℕ) : Prop :=
  0 < total ∧ request.firstSample < total ∧ (total : ℤ) < request.firstSample + frames

/-- The two checks on rows that were handed over from inside the stream. -/
theorem played_agrees_iff {request : SessionRequest} (hvalid : request.Valid)
    {info : Metadata.FlacStreamInfo} {total : ℕ} (htotal : info.totalSamples = total)
    (hinside : total = 0 ∨ request.firstSample.toNat < total) (rows : List (List Sample)) :
    ((request.played total rows).1 = true ↔
        Pcm.validateDecodedFrameCount info request.firstSample request.maxFrames?
          (request.played total rows).2.length = .ok ()) ↔
      ¬ request.Overruns total (request.played total rows).2.length := by
  obtain ⟨hnonneg, hbound⟩ := hvalid
  rw [validateDecodedFrameCount_eq_ok, htotal]
  unfold SessionRequest.Overruns
  cases request with
  | toEnd firstSample =>
    dsimp only [SessionRequest.firstSample, SessionRequest.maxFrames?, SessionRequest.played] at *
    simp
    omega
  | range firstSample maxFrames =>
    have hmax := hbound maxFrames rfl
    dsimp only [SessionRequest.firstSample, SessionRequest.maxFrames?, SessionRequest.played] at *
    rw [List.length_take]
    simp
    omega

/-- The ends of the two checks: they differ when libFLAC hands over frames behind the declared end,
inside the range. -/
theorem ending_agrees_iff {request : SessionRequest} (hvalid : request.Valid)
    {info : Metadata.FlacStreamInfo} {total : ℕ} (htotal : info.totalSamples = total)
    (rows : List (List Sample)) :
    ((request.ending total (some rows)).1 = true ↔
        Pcm.validateDecodedFrameCount info request.firstSample request.maxFrames?
          (request.ending total (some rows)).2.length = .ok ()) ↔
      ¬ request.Overruns total (request.ending total (some rows)).2.length := by
  by_cases hbehind : 0 < total ∧ total < request.firstSample.toNat
  · -- both checks refuse the first sample
    rw [show request.ending total (some rows) = (false, []) from if_pos hbehind,
      validateDecodedFrameCount_eq_ok, htotal]
    unfold SessionRequest.Overruns
    simp
    omega
  by_cases hempty : request.maxFrames? = some 0 ∨ (0 < total ∧ request.firstSample.toNat = total)
  · -- nothing was asked for, or nothing is left
    rw [show request.ending total (some rows) = (true, []) from
      (if_neg hbehind).trans (if_pos hempty), validateDecodedFrameCount_eq_ok, htotal]
    obtain ⟨hnonneg, hbound⟩ := hvalid
    unfold SessionRequest.Overruns
    cases request with
    | toEnd firstSample =>
      dsimp only [SessionRequest.firstSample, SessionRequest.maxFrames?] at *
      simp at hempty ⊢
      omega
    | range firstSample maxFrames =>
      have hmax := hbound maxFrames rfl
      dsimp only [SessionRequest.firstSample, SessionRequest.maxFrames?] at *
      simp at hempty ⊢
      omega
  · have hplayed : request.ending total (some rows) = request.played total rows :=
      (if_neg hbehind).trans (if_neg hempty)
    rw [hplayed]
    exact played_agrees_iff hvalid htotal (by omega) rows

section
variable {F : LibFlac D} {J : Jvm} {blocks : List Frame} {At : List Frame → Stream D → Prop}

/-- A one-shot request over any stream, whatever its STREAMINFO declares: it completes exactly when
the JVM check accepts the frames that the consumer received, unless libFLAC handed over frames behind
the declared end, inside the range. -/
theorem decodeOnce_agrees_iff (hquiet : J.Quiet) (hfinish : ∀ d, F.finish d = true)
    (input : SessionSource) (hstarts : input.Starts J) {container : ℤ}
    (hcontainer : isValidContainer container = true) {info : StreamInfo} {s : Stream D}
    (hopens : F.Opens J input.fields input.transport container input.calls info s)
    (hreads : F.Reads J input.fields At) {request : SessionRequest}
    (hrequest : rejectRequest (request.once container) = none)
    (hplays : info.totalSamples = 0 ∨ request.firstSample.toNat < info.totalSamples →
      F.PlaysFrom J input.fields At s request.firstSample blocks)
    {fuel : ℕ} (hfuel : blocks.length < fuel) (hfits : ∀ b ∈ blocks, b.Fits)
    {info' : Metadata.FlacStreamInfo} (htotal : info'.totalSamples = info.totalSamples) :
    ∃ success rows, (request.decodeOnce F J fuel container input).Ends success rows ∧
      ((success = true ↔ Pcm.validateDecodedFrameCount info' request.firstSample request.maxFrames?
          (framesHeard (request.decodeOnce F J fuel container input).machine.history) = .ok ()) ↔
        ¬ (0 < info.totalSamples ∧ request.firstSample < info.totalSamples ∧
          info.totalSamples < request.firstSample +
            framesHeard (request.decodeOnce F J fuel container input).machine.history)) := by
  have hvalid := (rejectRequest_once _).mp hrequest
  have hends := decodeOnce_ends hquiet hfinish input hstarts hcontainer hopens hreads hvalid
    (show _ → F.StartsFrom J input.fields At s request.firstSample (some blocks) from hplays)
    (by simpa using hfuel) (by simpa using hfits)
  refine ⟨_, _, hends, ?_⟩
  rw [hends.framesHeard.1]
  exact ending_agrees_iff hvalid htotal (rowsOf blocks)

/-- STREAMINFO as the JVM sees it. -/
def monoJavaInfo (totalSamples : ℤ) : Metadata.FlacStreamInfo :=
  { sampleRate := 44100, channels := 1, bitsPerSample := 16, totalSamples := totalSamples
    minBlockSize := 16, maxBlockSize := 16, minFrameSize := 0, maxFrameSize := 0
    md5Signature := Vector.replicate 16 0 }

/-- A stream that declares one frame and has two. -/
theorem decodeOnce_agrees_iff_longer :
    ∃ success rows,
      ((SessionRequest.toEnd 0).decodeOnce (scriptedReader (monoInfo 1) twoBlocks) quietJvm 3 0
        .file).Ends success rows ∧
      ((success = true ↔ Pcm.validateDecodedFrameCount (monoJavaInfo 1) 0 none
          (framesHeard ((SessionRequest.toEnd 0).decodeOnce (scriptedReader (monoInfo 1) twoBlocks)
            quietJvm 3 0 .file).machine.history) = .ok ()) ↔
        ¬ (0 < (monoInfo 1).totalSamples ∧ (0 : ℤ) < (monoInfo 1).totalSamples ∧
          (monoInfo 1).totalSamples < (0 : ℤ) +
            framesHeard ((SessionRequest.toEnd 0).decodeOnce (scriptedReader (monoInfo 1) twoBlocks)
              quietJvm 3 0 .file).machine.history)) :=
  decodeOnce_agrees_iff quietJvm_quiet (fun _ => rfl) .file trivial rfl
    (scriptedReader_opens (monoInfo 1) twoBlocks _ _ _ _ _)
    (scriptedReader_reads (monoInfo 1) twoBlocks _ _) rfl
    (fun _ => by
      unfold LibFlac.PlaysFrom
      exact (if_pos rfl).mpr rfl)
    (by decide) twoBlocks_fits rfl

end

end JFlac.Decode
