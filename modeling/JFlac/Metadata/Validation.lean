import JFlac.Lib.Checks
import JFlac.Metadata.Blocks

/-!
# What may be written

`validateFlacEncodingMetadata` checks the values that are to be written before any native code runs.
Each validator is a sequence of `require`s; the first one that fails throws.
-/

namespace JFlac.Metadata

open Lib

/-- `require`. -/
def require (condition : Prop) [Decidable condition] (message : String) : Except Throwable Unit :=
  if condition then .ok () else .error (.illegalArgumentException message)

@[simp] theorem require_eq_ok {condition : Prop} [Decidable condition] {message : String} :
    require condition message = .ok () ↔ condition := by
  rw [require]
  split <;> simp_all

/-! ## Text -/

/-- `Char.isWhitespace()`; there is no white space outside the basic plane. -/
def isWhitespace (c : Char) : Bool :=
  let code := c.toNat
  decide (0x09 ≤ code ∧ code ≤ 0x0d ∨ 0x1c ≤ code ∧ code ≤ 0x20 ∨ code = 0xa0 ∨ code = 0x1680 ∨
    0x2000 ≤ code ∧ code ≤ 0x200a ∨ code = 0x2028 ∨ code = 0x2029 ∨ code = 0x202f ∨
    code = 0x205f ∨ code = 0x3000)

/-- `isNotBlank()`. -/
def isNotBlank (text : Text) : Bool := !text.all isWhitespace

theorem ne_nil_of_isNotBlank {text : Text} (h : isNotBlank text = true) : text ≠ [] := by
  rintro rfl
  cases h

/-- `length`: the UTF-16 code units. -/
def utf16Length (text : Text) : ℕ := (text.map fun c => if 0xffff < c.toNat then 2 else 1).sum

/-- `isFixedAsciiField`; the code units of a surrogate pair are not printable either. -/
def isFixedAsciiField (text : Text) (maxBytes : ℕ) : Bool :=
  if maxBytes < utf16Length text then false
  else text.all fun c => decide (0x20 ≤ c.toNat ∧ c.toNat ≤ 0x7e)

/-- `utf8ByteCount`. -/
def utf8ByteCount (text : Text) : ℕ := (utf8 text).length

/-! ## Blocks -/

/-- The bytes of a comment block, as `validateVorbisCommentBlockLength` counts them. -/
def vorbisCommentBytes (vendor : Option Text) (comments : CommentMap) : ℕ :=
  8 + (vendor.elim 0 utf8ByteCount) +
    (comments.entries.map fun group =>
      (group.2.map fun value => 4 + utf8ByteCount (group.1 ++ '=' :: value)).sum).sum

/-- `validateVorbisComments`. -/
def validateVorbisComments (comments : CommentMap) (vendor : Option Text) :
    Except Throwable Unit := do
  require (∀ text ∈ vendor, nul ∉ text) "Vorbis vendor must not contain embedded NUL characters."
  forEach (fun (key, values) => do
    require (isNotBlank key) "Vorbis comment keys must not be blank."
    require ('=' ∉ key) "Vorbis comment keys must not contain '='."
    require (nul ∉ key) "Vorbis comment keys must not contain embedded NUL characters."
    forEach (fun value =>
      require (nul ∉ value) "Vorbis comment values must not contain embedded NUL characters.")
      values) comments.entries
  require (vorbisCommentBytes vendor comments ≤ maxBlockLength)
    "VORBIS_COMMENT metadata length must fit the FLAC 24-bit metadata length field."

/-- `validatePictureMetadata`. -/
def validatePictureMetadata (picture : FlacPicture) : Except Throwable Unit := do
  require (0 ≤ picture.type) "Picture type must be non-negative."
  require (isNotBlank picture.mimeType) "Picture MIME type must not be blank."
  require (nul ∉ picture.mimeType) "Picture MIME type must not contain embedded NUL characters."
  require (nul ∉ picture.description)
    "Picture description must not contain embedded NUL characters."
  require (0 ≤ picture.width) "Picture width must be non-negative."
  require (0 ≤ picture.height) "Picture height must be non-negative."
  require (0 ≤ picture.depth) "Picture depth must be non-negative."
  require (0 ≤ picture.colors) "Picture colour count must be non-negative."
  require (32 + utf8ByteCount picture.mimeType + utf8ByteCount picture.description +
      picture.data.length ≤ maxBlockLength)
    "PICTURE metadata length must fit the FLAC 24-bit metadata length field."

/-- `validateApplicationMetadata`. -/
def validateApplicationMetadata (application : FlacApplicationBlock) : Except Throwable Unit :=
  require (4 + application.data.length ≤ maxBlockLength)
    "APPLICATION metadata length must fit the FLAC 24-bit metadata length field."

/-- `validateSeekTableMetadata`. -/
def validateSeekTableMetadata (seekTable : FlacSeekTable) : Except Throwable Unit :=
  forEach (fun point : FlacSeekPoint => do
    require (-1 ≤ point.sampleNumber)
      "Seek point sample number must be non-negative or -1 for a placeholder."
    require (0 ≤ point.streamOffset) "Seek point stream offset must be non-negative."
    require (0 ≤ point.frameSamples ∧ point.frameSamples ≤ 65535)
      "Seek point frame sample count must fit the FLAC 16-bit field.") seekTable.points

/-- `validateCueSheetMetadata`. -/
def validateCueSheetMetadata (cueSheet : FlacCueSheet) : Except Throwable Unit := do
  require (isFixedAsciiField cueSheet.mediaCatalogNumber 128)
    "CUESHEET media catalog number must be printable ASCII and at most 128 bytes."
  require (0 ≤ cueSheet.leadIn) "CUESHEET lead-in must be non-negative."
  require (cueSheet.tracks.length ≤ 255) "CUESHEET track count must fit the FLAC 8-bit field."
  forEach (fun track : FlacCueSheetTrack => do
    require (0 ≤ track.offset) "CUESHEET track offset must be non-negative."
    require (0 ≤ track.number ∧ track.number ≤ 255)
      "CUESHEET track number must fit the FLAC 8-bit field."
    require (isFixedAsciiField track.isrc 12)
      "CUESHEET track ISRC must be printable ASCII and at most 12 bytes."
    require (0 ≤ track.type ∧ track.type ≤ 1) "CUESHEET track type must be 0 or 1."
    require (track.indices.length ≤ 255) "CUESHEET index count must fit the FLAC 8-bit field."
    forEach (fun index : FlacCueSheetIndex => do
      require (0 ≤ index.offset) "CUESHEET index offset must be non-negative."
      require (0 ≤ index.number ∧ index.number ≤ 255)
        "CUESHEET index number must fit the FLAC 8-bit field.") track.indices) cueSheet.tracks

/-- One block of `validateOrderedMetadataBlocks`. -/
def validateMetadataBlock : FlacMetadataBlock → Except Throwable Unit
  | .vorbisComment comment => validateVorbisComments comment.comments (some comment.vendor)
  | .picture picture => validatePictureMetadata picture
  | .application application => validateApplicationMetadata application
  | .seekTable seekTable => validateSeekTableMetadata seekTable
  | .cueSheet cueSheet => validateCueSheetMetadata cueSheet
  | .padding _ => .ok ()
  | .unknown _ => .ok ()

/-- `validateOrderedMetadataBlocks`. -/
def validateOrderedMetadataBlocks (blocks : List FlacMetadataBlock) : Except Throwable Unit := do
  require (blocks.countP (· matches .vorbisComment _) ≤ 1)
    "At most one Vorbis comment metadata block can be encoded."
  require (blocks.countP (· matches .seekTable _) ≤ 1)
    "At most one SEEKTABLE metadata block can be encoded."
  forEach validateMetadataBlock blocks

/-- `validateFlacEncodingMetadata`. -/
def validateFlacEncodingMetadata (metadata : FlacEncodingMetadata) : Except Throwable Unit :=
  if metadata.blocks ≠ [] then validateOrderedMetadataBlocks metadata.blocks
  else do
    validateVorbisComments metadata.comments none
    forEach validatePictureMetadata metadata.pictures
    forEach validateApplicationMetadata metadata.applicationBlocks
    require (metadata.seekTables.length ≤ 1) "At most one SEEKTABLE metadata block can be encoded."
    forEach validateSeekTableMetadata metadata.seekTables
    forEach validateCueSheetMetadata metadata.cueSheets

end JFlac.Metadata
