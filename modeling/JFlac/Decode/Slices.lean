import JFlac.Decode.OneShotRanges

/-!
# Ranges and slices

A bounded request hands the consumer a slice of the audio, whether it is decoded one-shot or on a
session, and whatever was requested of the session before.
-/

namespace JFlac.Decode

open Machine Lib

variable {D : Type}

/-- The end that a range of the audio `all` must come to: its slice, unless it starts behind the last
frame. -/
def rangeEnding (all : List (List Sample)) (firstSample maxFrames : ℕ) : Ending :=
  if firstSample ≤ all.length then
    (true, (all.drop firstSample).take (min maxFrames (all.length - firstSample)))
  else (false, [])

theorem slice_range (all : List (List Sample)) (firstSample maxFrames : ℕ) :
    (SessionRequest.range firstSample maxFrames).slice all =
      rangeEnding all firstSample maxFrames := by
  unfold rangeEnding
  show (if (firstSample : ℤ).toNat ≤ all.length then _ else _) = _
  rw [Int.toNat_natCast, Int.toNat_natCast, ← List.length_drop, ← List.take_eq_take_min]

theorem valid_range {firstSample maxFrames : ℕ} (h : (firstSample + maxFrames : ℤ) ≤ longMax) :
    (SessionRequest.range firstSample maxFrames).Valid := by
  refine ⟨Int.natCast_nonneg firstSample, ?_⟩
  rintro n ⟨⟩
  exact ⟨Int.natCast_nonneg maxFrames, h⟩

section
variable {F : LibFlac D} {J : Jvm} {blocks : List Frame} {At : List Frame → Stream D → Prop}

/-- A bounded decode hands over its slice in non-empty chunks, and then one `onComplete`; behind the
end it raises, with neither. So do the one-shot decode and, after any run of requests, the session. -/
theorem decodeRange_slices (hquiet : J.Quiet) (hfinish : ∀ d, F.finish d = true)
    (input : SessionSource) (hstarts : input.Starts J) {container : ℤ}
    (hcontainer : isValidContainer container = true) {info : StreamInfo} {s : Stream D}
    (hopens : F.Opens J input.fields input.transport container input.calls info s)
    (hreads : F.Seekable J input.fields blocks At) (hat : At blocks s)
    (hfits : ∀ b ∈ blocks, b.Fits) (htotal : info.totalSamples = (rowsOf blocks).length)
    (hpos : 0 < info.totalSamples) {fuel : ℕ} (hfuel : blocks.length < fuel) :
    (∀ firstSample maxFrames : ℕ, (firstSample + maxFrames : ℤ) ≤ longMax →
      ((SessionRequest.range firstSample maxFrames).decodeOnce F J fuel container
          input).finished = true ∧
        EndsWith []
          ((SessionRequest.range firstSample maxFrames).decodeOnce F J fuel container input).machine
          (rangeEnding (rowsOf blocks) firstSample maxFrames)) ∧
    ∃ session m, input.openDecoder F J container = (some session, m) ∧
      ∀ (requests : List SessionRequest) (firstSample maxFrames : ℕ),
        (firstSample + maxFrames : ℤ) ≤ longMax →
        (decodeDecoderRange F J fuel firstSample maxFrames true
            (sessionAfter F J fuel requests session)).finished = true ∧
          EndsWith (sessionAfter F J fuel requests session).machine.history
            (decodeDecoderRange F J fuel firstSample maxFrames true
              (sessionAfter F J fuel requests session)).session.machine
            (rangeEnding (rowsOf blocks) firstSample maxFrames) := by
  have hpos : 0 < (rowsOf blocks).length := by rwa [htotal] at hpos
  refine ⟨fun firstSample maxFrames hlong => ?_, ?_⟩
  · have hends := decodeOnce_slices hquiet hfinish input hstarts hcontainer hopens hreads hat hfits
      htotal hpos hfuel (valid_range hlong)
    rw [← slice_range]
    exact Outcome.ends_iff.mp hends
  · obtain ⟨session, m, hopen, hready⟩ :=
      input.openDecoder_ready hquiet hstarts hcontainer hopens ⟨_, hat⟩
    rw [htotal] at hready
    refine ⟨session, m, hopen, fun requests firstSample maxFrames hlong => ?_⟩
    have hends := SessionRequest.decode_slices hquiet hreads hfuel hfits hpos
      (hready.after hquiet hreads hfuel hfits hpos requests) (valid_range hlong)
    rw [slice_range] at hends
    exact ⟨hends.finished, hends.ended⟩

theorem decodeRange_slices_twoBlocks :
    (∀ firstSample maxFrames : ℕ, (firstSample + maxFrames : ℤ) ≤ longMax →
      ((SessionRequest.range firstSample maxFrames).decodeOnce (scriptedReader (monoInfo 2) twoBlocks)
          quietJvm 3 0 (.channel 0)).finished = true ∧
        EndsWith []
          ((SessionRequest.range firstSample maxFrames).decodeOnce
            (scriptedReader (monoInfo 2) twoBlocks) quietJvm 3 0 (.channel 0)).machine
          (rangeEnding (rowsOf twoBlocks) firstSample maxFrames)) ∧
    ∃ session m,
      SessionSource.openDecoder (scriptedReader (monoInfo 2) twoBlocks) quietJvm 0 (.channel 0) =
        (some session, m) ∧
      ∀ (requests : List SessionRequest) (firstSample maxFrames : ℕ),
        (firstSample + maxFrames : ℤ) ≤ longMax →
        (decodeDecoderRange (scriptedReader (monoInfo 2) twoBlocks) quietJvm 3 firstSample maxFrames
            true (sessionAfter (scriptedReader (monoInfo 2) twoBlocks) quietJvm 3 requests
              session)).finished = true ∧
          EndsWith (sessionAfter (scriptedReader (monoInfo 2) twoBlocks) quietJvm 3 requests
              session).machine.history
            (decodeDecoderRange (scriptedReader (monoInfo 2) twoBlocks) quietJvm 3 firstSample
              maxFrames true (sessionAfter (scriptedReader (monoInfo 2) twoBlocks) quietJvm 3 requests
                session)).session.machine
            (rangeEnding (rowsOf twoBlocks) firstSample maxFrames) :=
  decodeRange_slices quietJvm_quiet (fun _ => rfl) (.channel 0) ⟨by decide, [], rfl⟩ rfl
    (scriptedReader_opens _ _ _ _ _ _ _) (scriptedReader_seekable _ _ _ _) rfl twoBlocks_fits
    (by rfl) (by decide) (by decide)

end

end JFlac.Decode
