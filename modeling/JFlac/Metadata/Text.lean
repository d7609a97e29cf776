import Mathlib

/-!
# Text on both sides of the JNI

A JVM string of well-formed UTF-16 is a list of Unicode scalar values; libFLAC stores bytes. Strings
go out as UTF-8 (`jstring_to_utf8`) and come back through `new String(bytes, UTF_8)`, which puts a
replacement string for whatever is malformed. The C code searches and cuts the bytes at ASCII
characters. UTF-8 uses no byte of an ASCII character for anything else, so this is searching and
cutting the text.
-/

namespace JFlac.Metadata

/-- A string of well-formed text. -/
abbrev Text := List Char

/-- `getBytes(UTF_8)`. -/
def utf8 (text : Text) : List UInt8 := text.flatMap String.utf8EncodeChar

@[simp] theorem utf8_nil : utf8 [] = [] := rfl

@[simp] theorem utf8_cons (c : Char) (text : Text) :
    utf8 (c :: text) = String.utf8EncodeChar c ++ utf8 text := rfl

/-- `new String(bytes, UTF_8)`: well-formed UTF-8 is decoded, and what malformed sequences are
replaced by is left open. -/
structure Utf8Decoder where
  decode : List UInt8 → Text
  decode_utf8 : ∀ text, decode (utf8 text) = text

/-- A decoder that replaces malformed input as a whole. -/
def replacingDecoder : Utf8Decoder where
  decode bytes := match bytes.toByteArray.utf8Decode? with
    | some text => text.toList
    | none => [Char.ofNat 0xfffd]
  decode_utf8 text := by
    have h : (utf8 text).toByteArray.utf8Decode? = some text.toArray := List.utf8Decode?_utf8Encode
    simp [h]

/-! ## ASCII characters in UTF-8 -/

/-- The byte of an ASCII character. -/
def asciiByte (a : Char) : UInt8 := UInt8.ofNat a.toNat

theorem utf8EncodeChar_ascii {c : Char} (h : c.toNat < 128) :
    String.utf8EncodeChar c = [asciiByte c] := by
  have hle : c.val.toNat ≤ 0x7f := Nat.le_of_lt_succ h
  rw [String.utf8EncodeChar, if_pos hle]
  rfl

/-- Other characters are encoded without any byte of an ASCII character. -/
theorem le_of_mem_utf8EncodeChar {c : Char} (h : 128 ≤ c.toNat) {b : UInt8}
    (hb : b ∈ String.utf8EncodeChar c) : 128 ≤ b.toNat := by
  have hlarge : ¬ c.val.toNat ≤ 0x7f := Nat.not_le_of_lt h
  have hbyte : ∀ n, 128 ≤ n → n < 256 → 128 ≤ (UInt8.ofNat n).toNat := by
    intro n hn hn'
    rwa [UInt8.toNat_ofNat_of_lt' hn']
  rw [String.utf8EncodeChar, if_neg hlarge] at hb
  split at hb
  all_goals try split at hb
  all_goals
    simp only [List.mem_cons, List.not_mem_nil, or_false] at hb
    rcases hb with rfl | rfl | rfl | rfl <;> exact hbyte _ (by omega) (by omega)

/-- The byte of an ASCII character occurs in the encoding of that character only. -/
theorem asciiByte_mem_utf8EncodeChar {a c : Char} (ha : a.toNat < 128) :
    asciiByte a ∈ String.utf8EncodeChar c ↔ c = a := by
  have hbyte : (asciiByte a).toNat = a.toNat :=
    UInt8.toNat_ofNat_of_lt' (Nat.lt_trans ha (by decide))
  by_cases hc : c.toNat < 128
  · rw [utf8EncodeChar_ascii hc, List.mem_singleton]
    constructor
    · intro h
      have hcbyte : (asciiByte c).toNat = c.toNat :=
        UInt8.toNat_ofNat_of_lt' (Nat.lt_trans hc (by decide))
      apply Char.toNat_inj.mp
      rw [← hcbyte, ← h, hbyte]
    · rintro rfl
      rfl
  · constructor
    · intro h
      have := le_of_mem_utf8EncodeChar (by omega) h
      omega
    · rintro rfl
      exact absurd ha hc

/-- `strchr` on the bytes finds what is in the text. -/
theorem asciiByte_mem_utf8 {a : Char} (ha : a.toNat < 128) {text : Text} :
    asciiByte a ∈ utf8 text ↔ a ∈ text := by
  simp only [utf8, List.mem_flatMap, asciiByte_mem_utf8EncodeChar ha, exists_eq_right]

/-- `strlen`: the bytes before the first NUL. -/
def cString (bytes : List UInt8) : List UInt8 := bytes.takeWhile (· ≠ 0)

/-- `U+0000`. -/
def nul : Char := Char.ofNat 0

/-- Text without NUL survives as a C string. -/
theorem cString_utf8 {text : Text} (h : nul ∉ text) : cString (utf8 text) = utf8 text := by
  rw [cString, List.takeWhile_eq_self_iff]
  intro b hb
  rw [decide_eq_true_eq]
  rintro rfl
  exact h ((asciiByte_mem_utf8 (by decide)).mp hb)

/-- ASCII text takes one byte per character. -/
theorem utf8_ascii {text : Text} (h : ∀ c ∈ text, c.toNat < 128) : utf8 text = text.map asciiByte := by
  induction text with
  | nil => rfl
  | cons c text ih =>
    rw [utf8_cons, utf8EncodeChar_ascii (h c List.mem_cons_self),
      ih fun d hd => h d (List.mem_cons_of_mem c hd)]
    rfl

end JFlac.Metadata
