import JFlac.Sound.PcmReader
import JFlac.Streams.Caller

/-!
# Java Sound PCM is lossless

Decoded frames go out as bytes, and the bytes of a Java Sound stream come back as frames. Both ends
are independent of how the bytes are cut: on the way out by the caller's reads, on the way in by
what the stream returns for each read.
-/

namespace JFlac.Sound

open Lib
open Streams (CallerStream)

/-! ## Sources -/

/-- `read(buffer, offset, length)` of a stream that makes progress. -/
def bulkRead {σ : Type} (source : Source SoundException Byte σ) (s : σ) (length : ℕ) :
    StreamRead × σ :=
  source.read s (.upTo length)

variable {σ : Type}

/-- The reader gets the next bytes of a source, as many as it wants or as there are. -/
theorem readBytesForFrames_source (source : Source SoundException Byte σ) {bytesWanted : ℕ}
    (hwanted : 0 < bytesWanted) (frameBuffer : List Byte) (s : σ)
    (hlength : frameBuffer.length ≤ bytesWanted) :
    ∃ s', readBytesForFrames (bulkRead source) bytesWanted frameBuffer s =
        (.ok (if frameBuffer ++ (source.pending s).take (bytesWanted - frameBuffer.length) = [] then
            none
          else some (frameBuffer ++ (source.pending s).take (bytesWanted - frameBuffer.length))),
          s') ∧
      source.pending s' = (source.pending s).drop (bytesWanted - frameBuffer.length) := by
  obtain ⟨room, hroom⟩ : ∃ room, bytesWanted - frameBuffer.length = room := ⟨_, rfl⟩
  induction room using Nat.strong_induction_on generalizing frameBuffer s with
  | _ room ih =>
    rw [readBytesForFrames]
    by_cases hfull : frameBuffer.length < bytesWanted
    swap
    · have hnonempty : frameBuffer ≠ [] := fun h => by rw [h] at hfull; exact hfull hwanted
      refine ⟨s, ?_, ?_⟩
      · rw [if_neg hfull, Nat.sub_eq_zero_of_le (by omega), List.take_zero, List.append_nil,
          if_neg hnonempty]
      · rw [Nat.sub_eq_zero_of_le (by omega), List.drop_zero]
    rw [if_pos hfull]
    have hrequest : 0 < bytesWanted - frameBuffer.length := by omega
    by_cases hpending : source.pending s = []
    · obtain ⟨hread, hnext⟩ := source.read_nil s (.upTo _) hrequest hpending
      rw [← bulkRead] at hread hnext
      refine ⟨(bulkRead source s (bytesWanted - frameBuffer.length)).2, ?_, ?_⟩
      · rw [← Prod.eta (bulkRead source s (bytesWanted - frameBuffer.length)), hread, hpending,
          List.take_nil, List.append_nil]
      · rw [hnext, hpending, List.drop_nil]
    · obtain ⟨k, hk, hkn, hkp, hread, hnext⟩ := source.read_cons s (.upTo _) hrequest hpending
      rw [← bulkRead] at hread hnext
      change k ≤ bytesWanted - frameBuffer.length at hkn
      obtain ⟨b, bs, hbytes⟩ : ∃ b bs, (source.pending s).take k = b :: bs := by
        cases htake : (source.pending s).take k with
        | nil =>
          have hzero := congrArg List.length htake
          rw [List.length_take, List.length_nil] at hzero
          omega
        | cons b bs => exact ⟨b, bs, rfl⟩
      have hcount : (b :: bs).length = k := by
        rw [← hbytes, List.length_take]
        omega
      have hgrown : (frameBuffer ++ b :: bs).length = frameBuffer.length + k := by
        rw [List.length_append, hcount]
      obtain ⟨s', hrest, hs'⟩ := ih (bytesWanted - (frameBuffer.length + k)) (by omega)
        (frameBuffer ++ b :: bs) (bulkRead source s (bytesWanted - frameBuffer.length)).2 (by omega)
        (by rw [hgrown])
      have hsplit : (source.pending s).take (bytesWanted - frameBuffer.length) =
          b :: bs ++ ((source.pending s).drop k).take (bytesWanted - (frameBuffer.length + k)) := by
        rw [← hbytes, ← List.take_add]
        congr 1
        omega
      refine ⟨s', ?_, ?_⟩
      · rw [← Prod.eta (bulkRead source s (bytesWanted - frameBuffer.length)), hread, hbytes]
        dsimp only
        rw [hrest, hnext, hgrown, hsplit, List.append_assoc]
      · rw [hs', hnext, hgrown, List.drop_drop]
        congr 1
        omega

/-- Over any source of whole frames the writer hands over exactly the frames, with a round of its
loop for each batch. -/
theorem writePcm_source (layout : PcmLayout) (source : Source SoundException Byte σ)
    (n fuel : ℕ) {s : σ}
    {samples : List Sample} {written : List Chunk} {rows : List (List Sample)}
    (hsamples : samples.length = bufferFrames * layout.channels)
    (hpending : (source.pending s).length = n * layout.frameSize) (hfuel : n < fuel)
    (hwritten : Carries written rows) :
    ∃ written', writePcm layout (bulkRead source) fuel samples s written = some (.ok (), written') ∧
      Carries written' (rows ++ frames layout (source.pending s)) := by
  have hpos := layout.frameSize_pos
  have hwanted : 0 < bufferFrames * layout.frameSize := Nat.mul_pos (by decide) hpos
  induction n using Nat.strong_induction_on generalizing fuel s samples written rows with
  | _ n ih =>
    obtain ⟨fuel, rfl⟩ : ∃ fuel', fuel = fuel' + 1 := ⟨fuel - 1, by omega⟩
    obtain ⟨s', hread, hs'⟩ := readBytesForFrames_source source hwanted [] s (Nat.zero_le _)
    rw [List.nil_append, List.length_nil, Nat.sub_zero] at hread
    rw [List.length_nil, Nat.sub_zero] at hs'
    rcases Nat.eq_zero_or_pos n with rfl | hn
    · have hempty : source.pending s = [] := by
        rw [← List.length_eq_zero_iff, hpending, Nat.zero_mul]
      rw [hempty, List.take_nil, if_pos rfl] at hread
      refine ⟨written, writePcm_end written fuel hsamples hread, ?_⟩
      rwa [hempty, frames_nil, List.append_nil]
    · have hbatch : ((source.pending s).take (bufferFrames * layout.frameSize)).length =
          min bufferFrames n * layout.frameSize := by
        rw [List.length_take, hpending, Nat.mul_min_mul_right]
      have hbatchPos : 0 < min bufferFrames n := lt_min (by decide) hn
      have hnonempty : (source.pending s).take (bufferFrames * layout.frameSize) ≠ [] := by
        rw [← List.length_pos_iff, hbatch]
        exact Nat.mul_pos hbatchPos hpos
      rw [if_neg hnonempty] at hread
      obtain ⟨samples', hsamples', hround⟩ :=
        writePcm_batch written fuel hsamples (Nat.min_le_left _ _) hbatch hread
      have hrest : (source.pending s').length = (n - min bufferFrames n) * layout.frameSize := by
        rw [hs', List.length_drop, hpending, ← Nat.sub_mul]
        rcases Nat.le_total bufferFrames n with hle | hle
        · rw [Nat.min_eq_left hle]
        · rw [Nat.min_eq_right hle, Nat.sub_eq_zero_of_le hle, Nat.sub_self]
      have hlt : n - min bufferFrames n < n := by omega
      obtain ⟨written', hwrite, hcarries⟩ := ih _ hlt fuel hsamples' hrest (by omega)
        (hwritten.append (frames layout ((source.pending s).take (bufferFrames * layout.frameSize))))
      refine ⟨written', hround.trans hwrite, ?_⟩
      rwa [List.append_assoc, hs', ← frames_append layout _ hbatch, List.take_append_drop]
        at hcarries

/-! ## Encodings -/

/-- The bytes of a sample in a layout. -/
def PcmLayout.encodeSample (layout : PcmLayout) (sample : Sample) : List Byte :=
  if layout.encoding = .pcmUnsigned then [BitVec.ofInt 8 (sample.toInt + 128)]
  else if layout.bigEndian then (writeLittleEndianSample layout.bitsPerSample sample).reverse
  else writeLittleEndianSample layout.bitsPerSample sample

namespace PcmLayout

variable (layout : PcmLayout)

theorem depth_cases : layout.bitsPerSample = 8 ∨ layout.bitsPerSample = 16 ∨
    layout.bitsPerSample = 24 ∨ layout.bitsPerSample = 32 := by
  rcases layout.depth with h | ⟨-, h⟩
  · exact Or.inl h
  · exact Or.inr h

theorem length_encodeSample (sample : Sample) :
    (layout.encodeSample sample).length = layout.bytesPerSample := by
  have hbytes : (layout.bitsPerSample + 7) / 8 = layout.bytesPerSample := by
    rw [bytesPerSample]
    rcases layout.depth_cases with h | h | h | h <;> omega
  rw [encodeSample]
  by_cases hunsigned : layout.encoding = .pcmUnsigned
  · have hdepth : layout.bitsPerSample = 8 := by
      rcases layout.depth with h | ⟨h, -⟩
      · exact h
      · rw [h] at hunsigned
        contradiction
    rw [if_pos hunsigned, bytesPerSample, hdepth]
    rfl
  rw [if_neg hunsigned]
  by_cases hbig : layout.bigEndian
  · rw [if_pos hbig, List.length_reverse, length_writeLittleEndianSample, hbytes]
  · rw [if_neg hbig, length_writeLittleEndianSample, hbytes]

/-- The reader's decoding inverts the encoding of its layout. -/
theorem decodeSample_encodeSample {sample : Sample}
    (h : sample.Fits layout.bitsPerSample) :
    decodeSample layout.encoding layout.bitsPerSample layout.bigEndian (layout.encodeSample sample) =
      sample := by
  rw [encodeSample]
  cases hkind : layout.encoding with
  | other => exact absurd hkind layout.accepted
  | pcmUnsigned =>
    have hdepth : layout.bitsPerSample = 8 := by
      rcases layout.depth with h | ⟨h, -⟩
      · exact h
      · rw [h] at hkind
        contradiction
    rw [hdepth] at h ⊢
    rw [if_pos rfl]
    exact decodeSample_offset _ h
  | pcmSigned =>
    rw [if_neg (by decide)]
    cases layout.bigEndian with
    | true => exact decodeSample_bigEndian layout.depth_cases h
    | false => exact decodeSample_littleEndian layout.depth_cases h

/-- The bytes of samples, one after the other. -/
def encode (samples : List Sample) : List Byte := samples.flatMap layout.encodeSample

theorem hasWidth_encode (samples : List Sample) :
    HasWidth layout.bytesPerSample (samples.map layout.encodeSample) := by
  intro row hrow
  obtain ⟨sample, -, rfl⟩ := List.mem_map.mp hrow
  exact layout.length_encodeSample sample

theorem length_encode (samples : List Sample) :
    (layout.encode samples).length = samples.length * layout.bytesPerSample := by
  rw [encode, List.flatMap_def, (layout.hasWidth_encode samples).length_flatten, List.length_map]

theorem decodeFrame_encode {row : List Sample}
    (hrow : row.length = layout.channels) (h : ∀ sample ∈ row, sample.Fits layout.bitsPerSample) :
    decodeFrame layout (layout.encode row) = row := by
  refine List.ext_getElem (by rw [length_decodeFrame, hrow]) fun k hk hk' => ?_
  have hcut : ((layout.encode row).drop (k * layout.bytesPerSample)).take layout.bytesPerSample =
      layout.encodeSample row[k] := by
    rw [encode, List.flatMap_def,
      (layout.hasWidth_encode row).getElem_eq (by rwa [List.length_map]), List.getElem_map]
  simp only [decodeFrame, List.getElem_map, List.getElem_range]
  rw [hcut, layout.decodeSample_encodeSample (h _ (List.getElem_mem hk'))]

/-- The frames in the encoding of frames are these frames. -/
theorem frames_encode {rows : List (List Sample)}
    (hrows : HasWidth layout.channels rows)
    (h : ∀ sample ∈ rows.flatten, sample.Fits layout.bitsPerSample) :
    frames layout (layout.encode rows.flatten) = rows := by
  have hpos := layout.frameSize_pos
  induction rows with
  | nil => exact frames_nil layout
  | cons row rows ih =>
    obtain ⟨hrow, hrest⟩ := hrows.of_cons
    have hlength : (layout.encode row).length = 1 * layout.frameSize := by
      rw [layout.length_encode, hrow, Nat.one_mul, frameSize, Nat.mul_comm]
    have hone : frames layout (layout.encode row) = [row] := by
      rw [frames, hlength, Nat.mul_div_cancel _ hpos]
      show [decodeFrame layout (((layout.encode row).drop (0 * _)).take _)] = [row]
      rw [Nat.zero_mul, List.drop_zero, List.take_of_length_le (by omega),
        layout.decodeFrame_encode hrow fun sample hsample =>
          h sample (List.mem_flatten.mpr ⟨row, List.mem_cons_self, hsample⟩)]
    have htail := ih hrest fun sample hsample =>
      h sample (List.mem_append_right row hsample)
    rw [List.flatten_cons, encode, List.flatMap_append, ← encode, ← encode,
      frames_append layout _ hlength, hone, htail]
    rfl

end PcmLayout

/-! ## The two directions together -/

/-- Both directions are lossless. Whatever the sizes of the decoder's chunks and of the reads, every
call on the stream gets the next bytes of the little-endian encoding, and -1 exactly when there are
none left. From these bytes, cut in any way by the stream in between, the writer hands the encoder
session exactly the frames again; so it does for every other layout and its own encoding. -/
theorem javaSoundPcm_lossless {channels bits : ℕ} (hchannels : 1 ≤ channels)
    (hbits : bits = 8 ∨ bits = 16 ∨ bits = 24 ∨ bits = 32) {chunks : List (List (List Sample))}
    (hchunks : ∀ chunk ∈ chunks, IsChunk channels chunk)
    (hfits : ∀ sample ∈ chunks.flatten.flatten, sample.Fits bits) :
    (∀ calls,
      (FlacPcmInputStream.delivered
          ((FlacPcmInputStream.new (chunks.map chunkRead) channels bits).performAll calls).1 =
        (encodeSamples bits chunks.flatten.flatten).take (FlacPcmInputStream.requestedBy calls)) ∧
      ∀ call,
        (((FlacPcmInputStream.new (chunks.map chunkRead) channels bits).performAll calls).2.perform
            call).1 =
          some (FlacPcmInputStream.expected ((encodeSamples bits chunks.flatten.flatten).drop
            (FlacPcmInputStream.requestedBy calls)) call)) ∧
    (∀ layout : PcmLayout, layout.encoding = .pcmSigned → layout.channels = channels →
      layout.bitsPerSample = bits → layout.bigEndian = false →
      ∀ calls, some (.ok ⟨[], true⟩) ∈
        ((FlacPcmInputStream.new (chunks.map chunkRead) channels bits).performAll calls).1 →
      ∀ {σ : Type} (source : Source SoundException Byte σ) (s : σ),
      source.pending s = FlacPcmInputStream.delivered
          ((FlacPcmInputStream.new (chunks.map chunkRead) channels bits).performAll calls).1 →
      ∀ fuel, chunks.flatten.length < fuel →
      ∃ written,
        writePcm layout (bulkRead source) fuel (sampleArray layout) s [] = some (.ok (), written) ∧
        Carries written chunks.flatten ∧
        ∀ chunk ∈ written, Pcm.validateInterleavedPcmChunk (chunk.samples.map BitVec.toInt)
          chunk.frames layout.flacFormat = none) ∧
    ∀ layout : PcmLayout, layout.channels = channels → layout.bitsPerSample = bits →
      (∀ sample ∈ chunks.flatten.flatten,
        decodeSample layout.encoding bits layout.bigEndian (layout.encodeSample sample) = sample) ∧
      frames layout (layout.encode chunks.flatten.flatten) = chunks.flatten := by
  have hwidth : HasWidth channels chunks.flatten := by
    intro row hrow
    obtain ⟨chunk, hchunk, hmem⟩ := List.mem_flatten.mp hrow
    exact (hchunks chunk hchunk).width row hmem
  have hserves := FlacPcmInputStream.serves_new hchannels
    (by omega : 0 < bits) hchunks
  refine ⟨fun calls => ⟨FlacPcmInputStream.delivered_performAll hserves calls, fun call => ?_⟩, ?_,
    ?_⟩
  · obtain ⟨s', hcall, -⟩ := FlacPcmInputStream.perform_spec
      (FlacPcmInputStream.performAll_serves hserves calls) call
    rw [hcall]
  · rintro layout hencoding rfl rfl hlittle calls hended σ source s hpending fuel hfuel
    have hencode : layout.encode chunks.flatten.flatten =
        encodeSamples layout.bitsPerSample chunks.flatten.flatten := by
      refine congrArg (fun f => List.flatMap f _) (funext fun sample => ?_)
      rw [PcmLayout.encodeSample, hencoding, hlittle, if_neg (by decide), if_neg Bool.false_ne_true]
    rw [FlacPcmInputStream.delivered_of_ended hserves calls hended, ← hencode] at hpending
    have hlength : (source.pending s).length = chunks.flatten.length * layout.frameSize := by
      rw [hpending, layout.length_encode, hwidth.length_flatten, PcmLayout.frameSize, Nat.mul_assoc,
        Nat.mul_comm layout.channels]
    obtain ⟨written, hwrite, hcarries⟩ := writePcm_source layout source _ fuel
      (length_sampleArray layout) hlength hfuel carries_nil
    rw [hpending, layout.frames_encode hwidth hfits,
      List.nil_append] at hcarries
    exact ⟨written, hwrite, hcarries, writePcm_valid [] fuel (by simp) hwrite⟩
  · rintro layout rfl rfl
    exact ⟨fun sample hsample => layout.decodeSample_encodeSample (hfits sample hsample),
      layout.frames_encode hwidth hfits⟩

/-- Two stereo frames of 24 bits, in two chunks. -/
def stereoChunks : List (List (List Sample)) :=
  [[[1#32, -1#32]], [[-8388608#32, 8388607#32]]]

/-- The pull stream over them. -/
def stereoStream : FlacPcmInputStream := .new (stereoChunks.map chunkRead) 2 24

/-- One byte, up to eight bytes behind the first place of an array, up to four, and the read that
returns -1. -/
def stereoReads : List FlacPcmInputStream.ReadCall :=
  [.byte, .bulk (List.replicate 10 0#8) 1 8, .bulk (List.replicate 4 0#8) 0 4, .byte]

/-- The little-endian bytes of the two frames. -/
def stereoBytes : List Byte :=
  [0x01#8, 0x00#8, 0x00#8, 0xff#8, 0xff#8, 0xff#8, 0x00#8, 0x00#8, 0x80#8, 0xff#8, 0xff#8, 0x7f#8]

/-- Signed 24-bit stereo. -/
def stereoFormat : JavaAudioFormat where
  encoding := .pcmSigned
  channels := 2
  sampleSizeInBits := 24
  frameSize := 6
  bigEndian := false

/-- A stream of these bytes, of which nothing was read. -/
def unread (bytes : List Byte) : CallerStream where
  content := bytes
  position := 0
  marked := none
  readSinceMark := 0
  restarts := false
  reads := 0
  calls := []

/-- The two frames, read to -1 in portions that fit neither samples nor chunks, and written again
from a stream that brings at most five bytes with each read. -/
theorem javaSoundPcm_lossless_stereo :
    FlacPcmInputStream.delivered (stereoStream.performAll stereoReads).1 = stereoBytes ∧
      some (.ok ⟨[], true⟩) ∈ (stereoStream.performAll stereoReads).1 ∧
      ∃ layout written, pcmLayout stereoFormat = .ok layout ∧
        writePcm layout (bulkRead (CallerStream.source SoundException fun _ => 5)) 3
          (sampleArray layout) (unread stereoBytes) [] = some (.ok (), written) ∧
        Carries written [[1#32, -1#32], [-8388608#32, 8388607#32]] := by
  have hchunks : ∀ chunk ∈ stereoChunks, IsChunk 2 chunk := by
    intro chunk hchunk
    rcases List.mem_cons.mp hchunk with rfl | hchunk
    · exact ⟨List.cons_ne_nil _ _, by decide, by simp [HasWidth]⟩
    · rw [List.mem_singleton] at hchunk
      subst hchunk
      exact ⟨List.cons_ne_nil _ _, by decide, by simp [HasWidth]⟩
  have hfits : ∀ sample ∈ stereoChunks.flatten.flatten, Sample.Fits 24 sample := by
    intro sample hsample
    simp only [stereoChunks, List.flatten_cons, List.flatten_nil, List.append_nil,
      List.cons_append, List.nil_append, List.mem_cons, List.not_mem_nil, or_false] at hsample
    rcases hsample with rfl | rfl | rfl | rfl <;> exact ⟨by decide, by decide⟩
  have hended : some (.ok ⟨[], true⟩) ∈ (stereoStream.performAll stereoReads).1 := by decide
  obtain ⟨hread, hwrite, -⟩ := javaSoundPcm_lossless (by decide) (by decide) hchunks hfits
  have hbytes : FlacPcmInputStream.delivered (stereoStream.performAll stereoReads).1 =
      stereoBytes := (hread stereoReads).1
  refine ⟨hbytes, hended, ?_⟩
  obtain ⟨layout, hlayout, hencoding, hchannels, hbits, hlittle⟩ : ∃ layout,
      pcmLayout stereoFormat = .ok layout ∧ layout.encoding = .pcmSigned ∧
        layout.channels = 2 ∧ layout.bitsPerSample = 24 ∧ layout.bigEndian = false :=
    ⟨_, rfl, rfl, rfl, rfl, rfl⟩
  obtain ⟨written, hwritten, hcarries, -⟩ := hwrite layout hencoding hchannels hbits hlittle
    stereoReads hended (CallerStream.source SoundException fun _ => 5) (unread stereoBytes)
    hbytes.symm 3 (by decide)
  exact ⟨layout, written, hlayout, hwritten, hcarries⟩

end JFlac.Sound
