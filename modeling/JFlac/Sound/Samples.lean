import JFlac.Lib.Bytes
import JFlac.Pcm.Chunk

/-!
# Samples as PCM bytes

The two codecs of the Java Sound module: `FlacPcmInputStream` writes decoded samples as signed
little-endian bytes, and `PcmSampleReader` reads the layouts it accepts back into samples. A JVM
`int` is a 32-bit vector here, so that the shifts of the source are the shifts of the vectors.
-/

namespace JFlac.Sound

open Lib

/-- A JVM `int` that holds one sample. -/
abbrev Sample := BitVec 32

/-- A sample fits a signed bit depth. -/
def Sample.Fits (bitsPerSample : ℕ) (sample : Sample) : Prop :=
  -2 ^ (bitsPerSample - 1) ≤ sample.toInt ∧ sample.toInt < 2 ^ (bitsPerSample - 1)

/-! ## Writing -/

/-- `writeLittleEndianSample`: byte `i` is `(byte) (sample >> (i * 8))`. -/
def writeLittleEndianSample (bitsPerSample : ℕ) (sample : Sample) : List Byte :=
  (List.range ((bitsPerSample + 7) / 8)).map fun byteIndex =>
    (sample.sshiftRight (byteIndex * 8)).setWidth 8

theorem ofInt_toInt (sample : Sample) : BitVec.ofInt 8 sample.toInt = sample.setWidth 8 := by
  apply BitVec.eq_of_toNat_eq
  rw [BitVec.toNat_ofInt, BitVec.toNat_setWidth, BitVec.toInt_eq_toNat_cond]
  split <;> omega

theorem writeLittleEndianSample_eq (bitsPerSample : ℕ) (sample : Sample) :
    writeLittleEndianSample bitsPerSample sample =
      leDigits ((bitsPerSample + 7) / 8) sample.toInt := by
  rw [writeLittleEndianSample, leDigits_eq_map_range]
  refine List.map_congr_left fun i _ => ?_
  have hshift : sample.toInt >>> (i * 8) = sample.toInt / 256 ^ i := by
    rw [Int.shiftRight_eq_div_pow, Nat.mul_comm, pow_mul]
    rfl
  rw [← hshift, ← BitVec.toInt_sshiftRight, ofInt_toInt]

@[simp] theorem length_writeLittleEndianSample (bitsPerSample : ℕ) (sample : Sample) :
    (writeLittleEndianSample bitsPerSample sample).length = (bitsPerSample + 7) / 8 := by
  simp [writeLittleEndianSample]

/-! ## Reading -/

/-- `AudioFormat.Encoding`; `other` is an encoding that `PcmSampleReader` does not accept. -/
inductive Encoding where
  | pcmSigned
  | pcmUnsigned
  | other
  deriving DecidableEq, Repr

/-- One step of the sample loops: `(sample << 8) | (b & 0xff)`. -/
def shiftIn (sample : Sample) (b : Byte) : Sample := (sample <<< 8) ||| b.setWidth 32

/-- `decodeSample` on the bytes of one sample. -/
def decodeSample (encoding : Encoding) (bitsPerSample : ℕ) (bigEndian : Bool)
    (bytes : List Byte) : Sample :=
  if encoding = .pcmUnsigned then (bytes.headD 0).setWidth 32 - 128
  else if bitsPerSample = 8 then (bytes.headD 0).signExtend 32
  else
    let sample := if bigEndian then bytes.foldl shiftIn 0 else bytes.reverse.foldl shiftIn 0
    let shift := 32 - bitsPerSample
    (sample <<< shift).sshiftRight shift

theorem toNat_shiftIn (sample : Sample) (b : Byte) :
    (shiftIn sample b).toNat = (b.toNat + 256 * sample.toNat) % 2 ^ 32 := by
  have hb : b.toNat < 2 ^ 8 := b.isLt
  have hlow : sample.toNat <<< 8 % 2 ^ 32 = (sample.toNat % 2 ^ 24) <<< 8 := by
    rw [Nat.shiftLeft_eq, Nat.shiftLeft_eq]
    omega
  rw [shiftIn, BitVec.toNat_or, BitVec.toNat_shiftLeft, BitVec.toNat_setWidth,
    Nat.mod_eq_of_lt (hb.trans (by decide)), hlow, ← Nat.shiftLeft_add_eq_or_of_lt hb,
    Nat.shiftLeft_eq]
  omega

/-- The sample loops compute the number their bytes denote. -/
theorem toNat_foldr_shiftIn (bytes : List Byte) :
    (bytes.foldr (fun b sample => shiftIn sample b) 0).toNat = leValue bytes % 2 ^ 32 := by
  induction bytes with
  | nil => rfl
  | cons b bytes ih =>
    rw [List.foldr_cons, toNat_shiftIn, ih, leValue_cons]
    omega

/-- Shifting up and arithmetically down again is sign extension from the bit depth. -/
theorem toInt_signExtend (sample : Sample) {bits : ℕ} (hbits : bits = 16 ∨ bits = 24 ∨ bits = 32) :
    ((sample <<< (32 - bits)).sshiftRight (32 - bits)).toInt =
      (sample.toNat : ℤ).bmod (2 ^ bits) := by
  rw [BitVec.toInt_sshiftRight, BitVec.toInt_shiftLeft, Int.shiftRight_eq_div_pow,
    Nat.shiftLeft_eq]
  rcases hbits with rfl | rfl | rfl
  all_goals simp only [Int.bmod]
  all_goals omega

/-- A byte sign-extended: the branch for 8-bit signed samples. -/
theorem toInt_signExtend_byte (b : Byte) : (b.signExtend 32).toInt = (b.toNat : ℤ).bmod (2 ^ 8) := by
  rw [BitVec.toInt_signExtend_of_le (by decide), BitVec.toInt_eq_toNat_bmod]

/-- An unsigned byte, centred on zero. -/
theorem toInt_centred (b : Byte) : (b.setWidth 32 - 128#32).toInt = (b.toNat : ℤ) - 128 := by
  have hb : b.toNat < 2 ^ 8 := b.isLt
  have h128 : (128#32).toInt = 128 := rfl
  rw [BitVec.toInt_sub, BitVec.toInt_setWidth, h128]
  simp only [Int.bmod]
  omega

/-- Whatever the bytes are, the decoded sample fits the bit depth. -/
theorem decodeSample_fits {encoding : Encoding} {bits : ℕ} (bigEndian : Bool) (bytes : List Byte)
    (hbits : bits = 8 ∨ encoding = .pcmSigned ∧ (bits = 16 ∨ bits = 24 ∨ bits = 32)) :
    (decodeSample encoding bits bigEndian bytes).Fits bits := by
  have hbyte : (bytes.headD 0).toNat < 2 ^ 8 := (bytes.headD 0).isLt
  rw [decodeSample, Sample.Fits]
  rcases hbits with rfl | ⟨rfl, hbits⟩
  · by_cases hunsigned : encoding = .pcmUnsigned
    · rw [if_pos hunsigned]
      have hvalue := toInt_centred (bytes.headD 0)
      have h128 : (128 : Sample) = 128#32 := rfl
      rw [h128, hvalue]
      omega
    · rw [if_neg hunsigned, if_pos rfl, toInt_signExtend_byte]
      simp only [Int.bmod]
      omega
  · rw [if_neg (by decide), if_neg (by omega)]
    dsimp only
    rw [toInt_signExtend _ hbits]
    rcases hbits with rfl | rfl | rfl <;> simp only [Int.bmod] <;> omega

/-! ## Round trips -/

/-- A sample that fits a bit depth is determined by its low bits. -/
theorem Sample.Fits.bmod {bits : ℕ} {sample : Sample} (h : sample.Fits bits) (hbits : 1 ≤ bits) :
    (sample.toInt % 2 ^ bits).bmod (2 ^ bits) = sample.toInt := by
  obtain ⟨hlow, hhigh⟩ := h
  have hpow : (2 : ℤ) ^ bits = 2 * 2 ^ (bits - 1) := by
    rw [← pow_succ', Nat.sub_add_cancel hbits]
  have hcast : ((2 ^ bits : ℕ) : ℤ) = 2 ^ bits := by push_cast; rfl
  rw [← hcast, Int.emod_bmod]
  apply Int.bmod_eq_of_le
  all_goals rw [hcast, hpow]; omega

section

variable {bits : ℕ} {sample : Sample}

/-- The bytes of a sample of 16, 24 or 32 bits, read most significant byte first. -/
theorem decode_digits (hbits : bits = 16 ∨ bits = 24 ∨ bits = 32) (h : sample.Fits bits) :
    (((writeLittleEndianSample bits sample).foldr (fun b sample => shiftIn sample b) 0 <<<
      (32 - bits)).sshiftRight (32 - bits)) = sample := by
  apply BitVec.eq_of_toInt_eq
  rw [toInt_signExtend _ hbits, toNat_foldr_shiftIn, writeLittleEndianSample_eq]
  have hbound : (leValue (leDigits ((bits + 7) / 8) sample.toInt) : ℤ) = sample.toInt % 2 ^ bits := by
    rw [leValue_leDigits]
    rcases hbits with rfl | rfl | rfl <;> rfl
  have hsmall : leValue (leDigits ((bits + 7) / 8) sample.toInt) < 2 ^ 32 := by
    rcases hbits with rfl | rfl | rfl <;> omega
  rw [Nat.mod_eq_of_lt hsmall, hbound]
  exact h.bmod (by omega)

theorem writeLittleEndianSample_eight (sample : Sample) :
    writeLittleEndianSample 8 sample = [sample.setWidth 8] := by
  rw [writeLittleEndianSample_eq]
  exact congrArg (fun b => [b]) (ofInt_toInt sample)

/-- The low byte of an 8-bit sample is the sample. -/
theorem signExtend_setWidth (h : sample.Fits 8) : (sample.setWidth 8).signExtend 32 = sample := by
  apply BitVec.eq_of_toInt_eq
  have hbyte : ((sample.setWidth 8).toNat : ℤ) = sample.toInt % 2 ^ 8 := by
    rw [← ofInt_toInt, BitVec.toNat_ofInt]
    omega
  rw [toInt_signExtend_byte, hbyte]
  exact h.bmod (by decide)

/-- Reading little-endian bytes inverts writing them. -/
theorem decodeSample_littleEndian (hbits : bits = 8 ∨ bits = 16 ∨ bits = 24 ∨ bits = 32)
    (h : sample.Fits bits) :
    decodeSample .pcmSigned bits false (writeLittleEndianSample bits sample) = sample := by
  rw [decodeSample, if_neg (by decide)]
  rcases hbits with rfl | hbits
  · rw [if_pos rfl, writeLittleEndianSample_eight]
    exact signExtend_setWidth h
  · rw [if_neg (by omega)]
    simp only [Bool.false_eq_true, if_false, List.foldl_reverse]
    exact decode_digits hbits h

/-- Reading big-endian bytes inverts writing them. -/
theorem decodeSample_bigEndian (hbits : bits = 8 ∨ bits = 16 ∨ bits = 24 ∨ bits = 32)
    (h : sample.Fits bits) :
    decodeSample .pcmSigned bits true (writeLittleEndianSample bits sample).reverse = sample := by
  rw [decodeSample, if_neg (by decide)]
  rcases hbits with rfl | hbits
  · rw [if_pos rfl, writeLittleEndianSample_eight]
    exact signExtend_setWidth h
  · rw [if_neg (by omega)]
    simp only [if_true, List.foldl_reverse]
    exact decode_digits hbits h

/-- Reading an unsigned byte inverts adding the midpoint. -/
theorem decodeSample_offset (bigEndian : Bool) (h : sample.Fits 8) :
    decodeSample .pcmUnsigned 8 bigEndian [BitVec.ofInt 8 (sample.toInt + 128)] = sample := by
  obtain ⟨hlow, hhigh⟩ := h
  rw [decodeSample, if_pos rfl]
  apply BitVec.eq_of_toInt_eq
  show ((BitVec.ofInt 8 (sample.toInt + 128)).setWidth 32 - 128#32).toInt = sample.toInt
  rw [toInt_centred, BitVec.toNat_ofInt]
  omega

end

end JFlac.Sound
