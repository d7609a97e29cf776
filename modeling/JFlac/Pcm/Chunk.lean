import JFlac.Basic

/-!
# Interleaved PCM chunks

The check that every chunk passes before it reaches the native encoder. A sample is the value of a
JVM `Int`.
-/

namespace JFlac.Pcm

/-- `FlacAudioFormat`, as far as chunks are checked against it. -/
structure AudioFormat where
  channels : ℕ
  bitsPerSample : ℕ
  deriving DecidableEq, Repr

/-- The smallest sample of a bit depth. -/
def AudioFormat.minSample (format : AudioFormat) : ℤ :=
  if format.bitsPerSample = 32 then -2147483648 else -2 ^ (format.bitsPerSample - 1)

/-- The largest sample of a bit depth. -/
def AudioFormat.maxSample (format : AudioFormat) : ℤ :=
  if format.bitsPerSample = 32 then 2147483647 else 2 ^ (format.bitsPerSample - 1) - 1

/-- The exception text for a sample outside the range of its format. -/
def sampleMessage (format : AudioFormat) (sample : ℤ) : String :=
  "PCM sample " ++ toString sample ++ " is outside the signed " ++ toString format.bitsPerSample ++
    "-bit range [" ++ toString format.minSample ++ ", " ++ toString format.maxSample ++ "]."

/-- `validateInterleavedPcmChunk`: the message of the exception, if there is one. -/
def validateInterleavedPcmChunk (samples : List ℤ) (frames : ℤ) (format : AudioFormat) :
    Option String :=
  if frames < 0 then some "Frame count must be non-negative."
  else if (intMax : ℤ) < frames * format.channels then
    some "Frame count is too large for one chunk."
  else if (samples.length : ℤ) ≠ frames * format.channels then
    some "Sample array length must equal frames * channels."
  else
    (samples.find? fun sample => !(format.minSample ≤ sample && sample ≤ format.maxSample)).map
      (sampleMessage format)

/-- A chunk is accepted when its size and every sample fit. -/
theorem validateInterleavedPcmChunk_eq_none {samples : List ℤ} {frames : ℤ} {format : AudioFormat} :
    validateInterleavedPcmChunk samples frames format = none ↔
      0 ≤ frames ∧ frames * format.channels ≤ intMax ∧
        (samples.length : ℤ) = frames * format.channels ∧
        ∀ sample ∈ samples, format.minSample ≤ sample ∧ sample ≤ format.maxSample := by
  unfold validateInterleavedPcmChunk
  by_cases hneg : frames < 0
  · rw [if_pos hneg]
    simp only [reduceCtorEq, false_iff, not_and]
    omega
  rw [if_neg hneg]
  by_cases hlarge : (intMax : ℤ) < frames * format.channels
  · rw [if_pos hlarge]
    simp only [reduceCtorEq, false_iff, not_and]
    omega
  rw [if_neg hlarge]
  by_cases hlength : (samples.length : ℤ) = frames * format.channels
  swap
  · rw [if_pos hlength]
    simp only [reduceCtorEq, false_iff, not_and]
    exact fun _ _ h => absurd h hlength
  rw [if_neg (not_not.mpr hlength)]
  simp only [Option.map_eq_none_iff, List.find?_eq_none, Bool.not_eq_true', Bool.and_eq_false_iff,
    decide_eq_false_iff_not, not_or, not_not]
  exact ⟨fun h => ⟨by omega, by omega, hlength, h⟩, fun h => h.2.2.2⟩

end JFlac.Pcm
