import JFlac.Decode.Callbacks
import JFlac.Lib.Rows

/-!
# Blocks as rows

A decoded block is a table with one row per PCM frame. The audio a decoder holds is the list of
the rows of its blocks, and seeking to a sample cuts that list.
-/

namespace JFlac.Decode

/-- The PCM frames of a block. -/
def Frame.rows (frame : Frame) : List (List Sample) :=
  (List.range frame.blocksize).map fun frameIndex =>
    (List.range frame.channels).map fun channelIndex => frame.buffer channelIndex frameIndex

/-- The PCM frames of a list of blocks. -/
def rowsOf (blocks : List Frame) : List (List Sample) := blocks.flatMap Frame.rows

/-- A block that the decoder can hand on: it has frames, and fits a JVM array. -/
structure Frame.Fits (frame : Frame) : Prop where
  channels : 0 < frame.channels
  blocksize : 0 < frame.blocksize
  size : frame.channels * frame.blocksize ≤ intMax

@[simp] theorem Frame.length_rows (frame : Frame) : frame.rows.length = frame.blocksize := by
  simp [Frame.rows]

theorem Frame.rows_hasWidth (frame : Frame) : Lib.HasWidth frame.channels frame.rows := by
  intro row hrow
  obtain ⟨index, -, rfl⟩ := List.mem_map.mp hrow
  simp

@[simp] theorem rowsOf_nil : rowsOf [] = [] := rfl

@[simp] theorem rowsOf_cons (frame : Frame) (blocks : List Frame) :
    rowsOf (frame :: blocks) = frame.rows ++ rowsOf blocks := rfl

theorem rowsOf_append (blocks blocks' : List Frame) :
    rowsOf (blocks ++ blocks') = rowsOf blocks ++ rowsOf blocks' := by simp [rowsOf]

/-- Blocks of one channel count make rows of one width. -/
theorem rowsOf_hasWidth {c : ℕ} {blocks : List Frame} (h : ∀ b ∈ blocks, b.channels = c) :
    Lib.HasWidth c (rowsOf blocks) := by
  intro row hrow
  obtain ⟨block, hblock, hmem⟩ := List.mem_flatMap.mp hrow
  rw [← h block hblock]
  exact block.rows_hasWidth row hmem

theorem length_rowsOf (blocks : List Frame) :
    (rowsOf blocks).length = (blocks.map Frame.blocksize).sum := by
  induction blocks with
  | nil => rfl
  | cons block blocks ih => simp [ih]

/-- What the write callback copies is the flat form of the first rows. -/
theorem interleave_eq (frame : Frame) {frames : ℕ} (h : frames ≤ frame.blocksize) :
    interleave frame frames = (frame.rows.take frames).flatten := by
  have hrange : (List.range frame.blocksize).take frames = List.range frames := by
    rw [List.take_range, Nat.min_eq_left h]
  rw [Frame.rows, ← List.map_take, hrange, interleave, List.flatMap]

/-! ## Seeking -/

/-- The block without its first frames. -/
def Frame.suffix (frame : Frame) (skipped : ℕ) : Frame :=
  { channels := frame.channels
    blocksize := frame.blocksize - skipped
    buffer := fun channelIndex frameIndex => frame.buffer channelIndex (skipped + frameIndex)
    channels_lt := frame.channels_lt
    blocksize_lt := Nat.lt_of_le_of_lt (Nat.sub_le _ _) frame.blocksize_lt }

theorem Frame.rows_suffix (frame : Frame) (skipped : ℕ) :
    (frame.suffix skipped).rows = frame.rows.drop skipped := by
  have hrange : (List.range frame.blocksize).drop skipped =
      (List.range (frame.blocksize - skipped)).map (skipped + ·) := by
    rw [List.range_eq_range', List.drop_range', List.range_eq_range', List.map_add_range']
    simp
  have hrows : frame.rows.drop skipped = ((List.range frame.blocksize).drop skipped).map
      fun frameIndex => (List.range frame.channels).map fun channelIndex =>
        frame.buffer channelIndex frameIndex := List.map_drop.symm
  rw [hrows, hrange, List.map_map]
  rfl

/-- The suffix of the block that contains a sample, with the blocks after it. -/
def seekBlocks : List Frame → ℕ → Option (Frame × List Frame)
  | [], _ => none
  | block :: blocks, sample =>
    if sample < block.blocksize then some (block.suffix sample, blocks)
    else seekBlocks blocks (sample - block.blocksize)

/-- After a seek, the audio to come is that from the sample on. -/
theorem rowsOf_seekBlocks {blocks rest : List Frame} {sample : ℕ} {block : Frame}
    (h : seekBlocks blocks sample = some (block, rest)) :
    rowsOf (block :: rest) = (rowsOf blocks).drop sample := by
  induction blocks generalizing sample with
  | nil => cases h
  | cons first blocks ih =>
    unfold seekBlocks at h
    split at h
    · rename_i hlt
      cases h
      have hle : sample ≤ first.rows.length := by simpa using Nat.le_of_lt hlt
      rw [rowsOf_cons, rowsOf_cons, Frame.rows_suffix, List.drop_append_of_le_length hle]
    · rename_i hge
      have hnone : first.rows.drop sample = [] :=
        List.drop_eq_nil_of_le (by simpa using hge)
      rw [ih h, rowsOf_cons, List.drop_append, Frame.length_rows, hnone, List.nil_append]

theorem seekBlocks_of_lt {blocks : List Frame} {sample : ℕ}
    (h : sample < (rowsOf blocks).length) : ∃ found, seekBlocks blocks sample = some found := by
  induction blocks generalizing sample with
  | nil => simp at h
  | cons first blocks ih =>
    unfold seekBlocks
    split
    · exact ⟨_, rfl⟩
    · apply ih
      rw [rowsOf_cons, List.length_append, Frame.length_rows] at h
      omega

/-- A seek hands over a block that fits, when all blocks do. -/
theorem seekBlocks_fits {blocks rest : List Frame} {sample : ℕ} {block : Frame}
    (hfits : ∀ b ∈ blocks, b.Fits) (h : seekBlocks blocks sample = some (block, rest)) :
    ∀ b ∈ block :: rest, b.Fits := by
  induction blocks generalizing sample with
  | nil => cases h
  | cons first blocks ih =>
    unfold seekBlocks at h
    split at h
    · rename_i hlt
      cases h
      have hfirst := hfits first List.mem_cons_self
      have hsize : first.channels * (first.blocksize - sample) ≤ first.channels * first.blocksize :=
        Nat.mul_le_mul_left _ (Nat.sub_le _ _)
      intro b hb
      rcases List.mem_cons.mp hb with rfl | hb
      · exact ⟨hfirst.channels, by simp only [Frame.suffix]; omega,
          Nat.le_trans hsize hfirst.size⟩
      · exact hfits b (List.mem_cons_of_mem _ hb)
    · exact ih (fun b hb => hfits b (List.mem_cons_of_mem _ hb)) h

end JFlac.Decode
