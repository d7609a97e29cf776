import JFlac.Lib.Source
import JFlac.Sound.PcmInputStream

/-!
# Reading PCM bytes for the encoder

`PcmSampleReader` collects bytes from a Java Sound stream until a batch is full or the stream ends,
and decodes the whole frames it got. `FlacAudioFileWriter.writePcm` hands batch after batch to the
encoder session. The stream is a parameter: a read stores some bytes, reports the end or throws.
-/

namespace JFlac.Sound

open Lib

/-- What one `read(buffer, offset, length)` of a stream does: the bytes it stores, -1 or an
exception. -/
abbrev StreamRead := ReadAnswer SoundException Byte

/-! ## Formats -/

/-- `javax.sound.sampled.AudioFormat`, as far as the PCM layout is checked. -/
structure JavaAudioFormat where
  encoding : Encoding
  channels : ℤ
  sampleSizeInBits : ℤ
  frameSize : ℤ
  bigEndian : Bool
  deriving DecidableEq, Repr

/-- A layout `PcmSampleReader` can decode without scaling. -/
structure PcmLayout where
  encoding : Encoding
  channels : ℕ
  bitsPerSample : ℕ
  bigEndian : Bool
  channels_pos : 1 ≤ channels
  channels_le : channels ≤ 8
  accepted : encoding ≠ .other
  depth : bitsPerSample = 8 ∨
    encoding = .pcmSigned ∧ (bitsPerSample = 16 ∨ bitsPerSample = 24 ∨ bitsPerSample = 32)
  deriving DecidableEq, Repr

namespace PcmLayout

/-- `bitsPerSample / Byte.SIZE`. -/
def bytesPerSample (layout : PcmLayout) : ℕ := layout.bitsPerSample / 8

/-- `bytesPerSample * channels`. -/
def frameSize (layout : PcmLayout) : ℕ := layout.bytesPerSample * layout.channels

/-- The format of the encoder session that `flacFormat` asks for. -/
def flacFormat (layout : PcmLayout) : Pcm.AudioFormat := ⟨layout.channels, layout.bitsPerSample⟩

theorem bytesPerSample_pos (layout : PcmLayout) : 1 ≤ layout.bytesPerSample := by
  rw [bytesPerSample]
  rcases layout.depth with h | ⟨-, h | h | h⟩ <;> omega

theorem frameSize_pos (layout : PcmLayout) : 1 ≤ layout.frameSize :=
  Nat.mul_pos layout.bytesPerSample_pos layout.channels_pos

end PcmLayout

/-- `validatedBitsPerSample`. -/
def validatedBitsPerSample (encoding : Encoding) (bits : ℤ) : Except SoundException Unit :=
  match encoding with
  | .pcmUnsigned =>
    if bits = 8 then .ok ()
    else .error (.illegalArgumentException "only 8-bit unsigned PCM is supported")
  | .other =>
    .error (.illegalArgumentException
      "only PCM signed and 8-bit PCM unsigned formats are supported")
  | .pcmSigned =>
    if bits = 8 ∨ bits = 16 ∨ bits = 24 ∨ bits = 32 then .ok ()
    else .error (.illegalArgumentException "signed PCM sample size must be 8, 16, 24, or 32 bits")

theorem validatedBitsPerSample_eq_ok {encoding : Encoding} {bits : ℤ}
    (h : validatedBitsPerSample encoding bits = .ok ()) :
    encoding ≠ .other ∧ (bits.toNat = 8 ∨
      encoding = .pcmSigned ∧ (bits.toNat = 16 ∨ bits.toNat = 24 ∨ bits.toNat = 32)) := by
  unfold validatedBitsPerSample at h
  cases encoding with
  | pcmUnsigned =>
    by_cases hbits : bits = 8
    · exact ⟨nofun, Or.inl (by omega)⟩
    · simp [hbits] at h
  | pcmSigned =>
    by_cases hbits : bits = 8 ∨ bits = 16 ∨ bits = 24 ∨ bits = 32
    · refine ⟨nofun, ?_⟩
      rcases hbits with h | h | h | h <;> subst h <;> simp
    · simp [hbits] at h
  | other => simp at h

/-- The constructor of `PcmSampleReader`: the layout of the format, or why it is rejected. -/
def pcmLayout (format : JavaAudioFormat) : Except SoundException PcmLayout :=
  if hchannels : format.channels < 1 ∨ 8 < format.channels then
    .error (.illegalArgumentException "channel count must be between 1 and 8")
  else
    match hbits : validatedBitsPerSample format.encoding format.sampleSizeInBits with
    | .error e => .error e
    | .ok () =>
      if format.frameSize ≠ format.sampleSizeInBits / 8 * format.channels then
        .error (.illegalArgumentException "frame size does not match sample size and channel count")
      else
        .ok
          { encoding := format.encoding
            channels := format.channels.toNat
            bitsPerSample := format.sampleSizeInBits.toNat
            bigEndian := format.bigEndian
            channels_pos := by omega
            channels_le := by omega
            accepted := (validatedBitsPerSample_eq_ok hbits).1
            depth := (validatedBitsPerSample_eq_ok hbits).2 }

/-! ## The reader -/

/-- `BUFFER_FRAMES`. -/
def bufferFrames : ℕ := 1024

variable {σ : Type}

/-- `readBytesForFrames`, with the part of the frame buffer filled so far; `none` is -1. -/
def readBytesForFrames (read : σ → ℕ → StreamRead × σ) (bytesWanted : ℕ) (frameBuffer : List Byte)
    (input : σ) : Except SoundException (Option (List Byte)) × σ :=
  if frameBuffer.length < bytesWanted then
    match read input (bytesWanted - frameBuffer.length) with
    | (.ended, input) => (.ok (if frameBuffer = [] then none else some frameBuffer), input)
    | (.raised e, input) => (.error e, input)
    | (.data [], input) =>
      (.error (.ioException "PCM input returned no bytes for a positive read request."), input)
    | (.data (b :: bytes), input) =>
      readBytesForFrames read bytesWanted (frameBuffer ++ b :: bytes) input
  else (.ok (some frameBuffer), input)
termination_by bytesWanted - frameBuffer.length
decreasing_by
  rw [List.length_append, List.length_cons]
  omega

/-- `decodeFrames`. -/
def decodeFrames (layout : PcmLayout) (framesRead : ℕ) (bytes : List Byte) : List Sample :=
  (List.range (framesRead * layout.channels)).map fun i =>
    decodeSample layout.encoding layout.bitsPerSample layout.bigEndian
      ((bytes.drop (i * layout.bytesPerSample)).take layout.bytesPerSample)

/-- `readFrames`: the number of frames, `none` for -1, and the output array. -/
def readFrames (layout : PcmLayout) (read : σ → ℕ → StreamRead × σ) (output : List Sample)
    (maxFrames : ℤ) (input : σ) : Except SoundException (Option ℕ × List Sample) × σ :=
  if maxFrames < 0 then
    (.error (.illegalArgumentException "maxFrames must not be negative"), input)
  else if (output.length : ℤ) < maxFrames * layout.channels then
    (.error (.illegalArgumentException "output is too small for the requested frame count"), input)
  else if maxFrames = 0 then (.ok (some 0, output), input)
  else
    match readBytesForFrames read (min maxFrames.toNat bufferFrames * layout.frameSize) [] input with
    | (.error e, input) => (.error e, input)
    | (.ok none, input) => (.ok (none, output), input)
    | (.ok (some bytes), input) =>
      if bytes.length % layout.frameSize ≠ 0 then
        (.error (.ioException "Unexpected EOF in final partial PCM frame"), input)
      else
        let framesRead := bytes.length / layout.frameSize
        (.ok (some framesRead, splice (decodeFrames layout framesRead bytes) output 0), input)

/-! ## The writer -/

/-- A chunk handed to an encoder session. -/
structure Chunk where
  samples : List Sample
  frames : ℕ
  deriving DecidableEq, Repr

/-- `FlacEncodingSession.writeInterleaved` with a native encoder that takes every valid chunk: the
chunk is validated and then handed over. -/
def writeInterleaved (format : Pcm.AudioFormat) (chunk : Chunk) (written : List Chunk) :
    Except SoundException (List Chunk) :=
  match Pcm.validateInterleavedPcmChunk (chunk.samples.map BitVec.toInt) chunk.frames format with
  | some message => .error (.illegalArgumentException message)
  | none => .ok (written ++ [chunk])

/-- `writePcm`: how it ends and the chunks handed over; `none` when the fuel does not suffice for
the rounds of its loop. -/
def writePcm (layout : PcmLayout) (read : σ → ℕ → StreamRead × σ) :
    ℕ → List Sample → σ → List Chunk → Option (Except SoundException Unit × List Chunk)
  | 0, _, _, _ => none
  | fuel + 1, samples, input, written =>
    match readFrames layout read samples bufferFrames input with
    | (.error e, _) => some (.error e, written)
    | (.ok (none, _), _) => some (.ok (), written)
    | (.ok (some framesRead, samples), input) =>
      let sampleCount := framesRead * layout.channels
      let chunk := if sampleCount = samples.length then samples else samples.take sampleCount
      match writeInterleaved layout.flacFormat ⟨chunk, framesRead⟩ written with
      | .error e => some (.error e, written)
      | .ok written => writePcm layout read fuel samples input written

/-- The array that `writePcm` allocates. -/
def sampleArray (layout : PcmLayout) : List Sample :=
  List.replicate (bufferFrames * layout.channels) 0

theorem length_sampleArray (layout : PcmLayout) :
    (sampleArray layout).length = bufferFrames * layout.channels := List.length_replicate ..

/-! ## The frames of a byte list -/

section Frames

variable (layout : PcmLayout)

/-- The samples in the bytes of one frame. -/
def decodeFrame (frame : List Byte) : List Sample :=
  (List.range layout.channels).map fun channel =>
    decodeSample layout.encoding layout.bitsPerSample layout.bigEndian
      ((frame.drop (channel * layout.bytesPerSample)).take layout.bytesPerSample)

/-- The whole frames of a byte list. -/
def frames (bytes : List Byte) : List (List Sample) :=
  (List.range (bytes.length / layout.frameSize)).map fun j =>
    decodeFrame layout ((bytes.drop (j * layout.frameSize)).take layout.frameSize)

@[simp] theorem length_decodeFrame (frame : List Byte) :
    (decodeFrame layout frame).length = layout.channels := by
  simp [decodeFrame]

@[simp] theorem length_frames (bytes : List Byte) :
    (frames layout bytes).length = bytes.length / layout.frameSize := by
  simp [frames]

theorem hasWidth_frames (bytes : List Byte) : HasWidth layout.channels (frames layout bytes) := by
  intro row hrow
  obtain ⟨j, -, rfl⟩ := List.mem_map.mp hrow
  exact length_decodeFrame layout _

@[simp] theorem frames_nil : frames layout [] = [] := by simp [frames]

/-- The frames of bytes that start with whole frames. -/
theorem frames_append {m : ℕ} {xs : List Byte} (ys : List Byte) (h : xs.length = m * layout.frameSize) :
    frames layout (xs ++ ys) = frames layout xs ++ frames layout ys := by
  have hpos := layout.frameSize_pos
  have hcount : (xs ++ ys).length / layout.frameSize = m + ys.length / layout.frameSize := by
    rw [List.length_append, h, Nat.add_comm, Nat.add_mul_div_right _ _ hpos, Nat.add_comm]
  rw [frames, frames, frames, hcount, h, Nat.mul_div_cancel _ hpos, List.range_add, List.map_append,
    List.map_map]
  congr 1
  · refine List.map_congr_left fun j hj => ?_
    have hj : (j + 1) * layout.frameSize ≤ m * layout.frameSize :=
      Nat.mul_le_mul_right _ (List.mem_range.mp hj)
    rw [Nat.succ_mul] at hj
    rw [List.drop_append_of_le_length (by omega),
      List.take_append_of_le_length (by rw [List.length_drop]; omega)]
  · refine List.map_congr_left fun j _ => ?_
    show decodeFrame layout (((xs ++ ys).drop ((m + j) * layout.frameSize)).take _) = _
    rw [Nat.add_mul, ← h, ← List.drop_drop, List.drop_left' rfl]

/-- A trailing partial frame has no frames. -/
theorem frames_of_lt {bytes : List Byte} (h : bytes.length < layout.frameSize) :
    frames layout bytes = [] := by
  rw [← List.length_eq_zero_iff, length_frames, Nat.div_eq_of_lt h]

/-- `decodeFrames` decodes the frames one after the other. -/
theorem decodeFrames_eq {m : ℕ} {bytes : List Byte} (h : bytes.length = m * layout.frameSize) :
    decodeFrames layout m bytes = (frames layout bytes).flatten := by
  have hpos := layout.frameSize_pos
  rw [decodeFrames, map_range_mul, frames, h, Nat.mul_div_cancel _ hpos]
  refine congrArg List.flatten (List.map_congr_left fun j _ => List.map_congr_left fun k hk => ?_)
  have hk : (k + 1) * layout.bytesPerSample ≤ layout.channels * layout.bytesPerSample :=
    Nat.mul_le_mul_right _ (List.mem_range.mp hk)
  rw [Nat.succ_mul, Nat.mul_comm layout.channels] at hk
  rw [List.drop_take, List.take_take, List.drop_drop, Nat.min_eq_left (by
    rw [PcmLayout.frameSize]; omega)]
  congr 3
  rw [PcmLayout.frameSize]
  ring

/-- Decoded samples always fit the depth of the format. -/
theorem fits_of_mem_frames {bytes : List Byte} {sample : Sample}
    (h : sample ∈ (frames layout bytes).flatten) : sample.Fits layout.bitsPerSample := by
  obtain ⟨row, hrow, hsample⟩ := List.mem_flatten.mp h
  obtain ⟨j, -, rfl⟩ := List.mem_map.mp hrow
  obtain ⟨k, -, rfl⟩ := List.mem_map.mp hsample
  exact decodeSample_fits _ _ layout.depth

end Frames

/-! ## One round of the writer -/

/-- The chunks handed to the session are these frames in order. -/
def Carries (written : List Chunk) (rows : List (List Sample)) : Prop :=
  ∃ parts : List (List (List Sample)), parts.flatten = rows ∧
    written = parts.map fun part => ⟨part.flatten, part.length⟩

theorem carries_nil : Carries [] [] := ⟨[], rfl, rfl⟩

theorem Carries.append {written : List Chunk} {rows : List (List Sample)} (h : Carries written rows)
    (part : List (List Sample)) :
    Carries (written ++ [⟨part.flatten, part.length⟩]) (rows ++ part) := by
  obtain ⟨parts, rfl, rfl⟩ := h
  exact ⟨parts ++ [part], by simp, by simp⟩

/-- The range of a bit depth is what the chunk check allows. -/
theorem Sample.Fits.range {bits channels : ℕ} {sample : Sample} (h : sample.Fits bits) :
    (Pcm.AudioFormat.mk channels bits).minSample ≤ sample.toInt ∧
      sample.toInt ≤ (Pcm.AudioFormat.mk channels bits).maxSample := by
  obtain ⟨hlow, hhigh⟩ := h
  unfold Pcm.AudioFormat.minSample Pcm.AudioFormat.maxSample
  dsimp only
  by_cases hbits : bits = 32
  · subst hbits
    simp only [if_true]
    omega
  · rw [if_neg hbits, if_neg hbits]
    omega

section Round

variable {layout : PcmLayout} {read : σ → ℕ → StreamRead × σ} {samples : List Sample}
  {input input' : σ} (written : List Chunk)

/-- The encoder session takes a batch of decoded frames. -/
theorem writeInterleaved_frames {m : ℕ} {bytes : List Byte} (hm : m ≤ bufferFrames)
    (h : bytes.length = m * layout.frameSize) :
    writeInterleaved layout.flacFormat ⟨(frames layout bytes).flatten, m⟩ written =
      .ok (written ++ [⟨(frames layout bytes).flatten, m⟩]) := by
  have hlength : (frames layout bytes).flatten.length = m * layout.channels := by
    rw [(hasWidth_frames layout bytes).length_flatten, length_frames, h,
      Nat.mul_div_cancel _ layout.frameSize_pos]
  have hsize : m * layout.channels ≤ 1024 * 8 := Nat.mul_le_mul hm layout.channels_le
  have hvalid : Pcm.validateInterleavedPcmChunk ((frames layout bytes).flatten.map BitVec.toInt) m
      layout.flacFormat = none := by
    refine Pcm.validateInterleavedPcmChunk_eq_none.mpr ⟨Int.natCast_nonneg m, ?_, ?_, ?_⟩
    · show (m : ℤ) * (layout.channels : ℤ) ≤ intMax
      rw [← Nat.cast_mul, intMax]
      omega
    · rw [List.length_map, hlength, Nat.cast_mul]
      rfl
    · intro value hvalue
      obtain ⟨sample, hsample, rfl⟩ := List.mem_map.mp hvalue
      exact (fits_of_mem_frames layout hsample).range
  rw [writeInterleaved, hvalid]

theorem readFrames_eq (hsamples : samples.length = bufferFrames * layout.channels) :
    readFrames layout read samples bufferFrames input =
      match readBytesForFrames read (bufferFrames * layout.frameSize) [] input with
      | (.error e, input) => (.error e, input)
      | (.ok none, input) => (.ok (none, samples), input)
      | (.ok (some bytes), input) =>
        if bytes.length % layout.frameSize ≠ 0 then
          (.error (.ioException "Unexpected EOF in final partial PCM frame"), input)
        else
          (.ok (some (bytes.length / layout.frameSize),
            splice (decodeFrames layout (bytes.length / layout.frameSize) bytes) samples 0),
            input) := by
  have hcapacity : ¬ (samples.length : ℤ) < (bufferFrames : ℤ) * layout.channels := by
    rw [hsamples, Nat.cast_mul]
    exact lt_irrefl _
  have hpositive : ¬ (bufferFrames : ℤ) = 0 := by decide
  rw [readFrames, if_neg (by decide), if_neg hcapacity, if_neg hpositive]
  rfl

/-- A batch of whole frames goes to the session, and the writer goes on. -/
theorem writePcm_batch (fuel : ℕ) {m : ℕ} {bytes : List Byte}
    (hsamples : samples.length = bufferFrames * layout.channels) (hm : m ≤ bufferFrames)
    (hbytes : bytes.length = m * layout.frameSize)
    (hread : readBytesForFrames read (bufferFrames * layout.frameSize) [] input =
      (.ok (some bytes), input')) :
    ∃ samples', samples'.length = bufferFrames * layout.channels ∧
      writePcm layout read (fuel + 1) samples input written =
        writePcm layout read fuel samples' input'
          (written ++ [⟨(frames layout bytes).flatten, (frames layout bytes).length⟩]) := by
  have hlength : (frames layout bytes).flatten.length = m * layout.channels := by
    rw [(hasWidth_frames layout bytes).length_flatten, length_frames, hbytes,
      Nat.mul_div_cancel _ layout.frameSize_pos]
  have hcapacity : 0 + (frames layout bytes).flatten.length ≤ samples.length := by
    rw [Nat.zero_add, hlength, hsamples]
    exact Nat.mul_le_mul_right _ hm
  refine ⟨splice (frames layout bytes).flatten samples 0, (length_splice hcapacity).trans hsamples, ?_⟩
  rw [writePcm, readFrames_eq hsamples, hread]
  dsimp only
  rw [hbytes, Nat.mul_mod_left, if_neg (not_not.mpr rfl), Nat.mul_div_cancel _ layout.frameSize_pos,
    decodeFrames_eq layout hbytes]
  dsimp only
  have hchunk : (if m * layout.channels = (splice (frames layout bytes).flatten samples 0).length then
        splice (frames layout bytes).flatten samples 0
      else (splice (frames layout bytes).flatten samples 0).take (m * layout.channels)) =
      (frames layout bytes).flatten := by
    have htake : (splice (frames layout bytes).flatten samples 0).take (m * layout.channels) =
        (frames layout bytes).flatten := by
      rw [← hlength]
      exact take_splice_zero _ _
    by_cases hfull : m * layout.channels = (splice (frames layout bytes).flatten samples 0).length
    · rw [hfull, List.take_length] at htake
      rw [if_pos hfull, htake]
    · rw [if_neg hfull, htake]
  rw [hchunk, writeInterleaved_frames written hm hbytes]
  dsimp only
  rw [length_frames, hbytes, Nat.mul_div_cancel _ layout.frameSize_pos]

/-- At the end of the stream the writer returns. -/
theorem writePcm_end (fuel : ℕ) (hsamples : samples.length = bufferFrames * layout.channels)
    (hread : readBytesForFrames read (bufferFrames * layout.frameSize) [] input =
      (.ok none, input')) :
    writePcm layout read (fuel + 1) samples input written = some (.ok (), written) := by
  rw [writePcm, readFrames_eq hsamples, hread]

/-- A failed read fails the writer. -/
theorem writePcm_error (fuel : ℕ) {e : SoundException}
    (hsamples : samples.length = bufferFrames * layout.channels)
    (hread : readBytesForFrames read (bufferFrames * layout.frameSize) [] input =
      (.error e, input')) :
    writePcm layout read (fuel + 1) samples input written = some (.error e, written) := by
  rw [writePcm, readFrames_eq hsamples, hread]

/-- Every chunk the session got had passed the chunk check. -/
theorem writePcm_valid (fuel : ℕ) {outcome : Except SoundException Unit} {written' : List Chunk}
    (h : ∀ chunk ∈ written, Pcm.validateInterleavedPcmChunk (chunk.samples.map BitVec.toInt)
      chunk.frames layout.flacFormat = none)
    (hrun : writePcm layout read fuel samples input written = some (outcome, written')) :
    ∀ chunk ∈ written', Pcm.validateInterleavedPcmChunk (chunk.samples.map BitVec.toInt)
      chunk.frames layout.flacFormat = none := by
  induction fuel generalizing samples input written with
  | zero => simp [writePcm] at hrun
  | succ fuel ih =>
    rw [writePcm] at hrun
    split at hrun
    · obtain ⟨-, rfl⟩ : _ ∧ written = written' := by simpa using hrun
      exact h
    · obtain ⟨-, rfl⟩ : _ ∧ written = written' := by simpa using hrun
      exact h
    · dsimp only at hrun
      split at hrun
      · obtain ⟨-, rfl⟩ : _ ∧ written = written' := by simpa using hrun
        exact h
      · rename_i taken hwrite
        refine ih taken (fun chunk hchunk => ?_) hrun
        rw [writeInterleaved] at hwrite
        split at hwrite
        · simp at hwrite
        · rename_i hvalid
          obtain rfl := Except.ok.inj hwrite
          rcases List.mem_append.mp hchunk with hold | hnew
          · exact h chunk hold
          · rw [List.mem_singleton] at hnew
            subst hnew
            exact hvalid

end Round

end JFlac.Sound
