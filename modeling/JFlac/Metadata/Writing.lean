import JFlac.Metadata.Comments

/-!
# Writing metadata

The builders turn public blocks into native ones. A builder returns `false` with an exception pending
or without one; libFLAC decides what is legal, and every block must fit the 24-bit length at the end.
-/

namespace JFlac.Metadata

/-- What the builders use of libFLAC: the vendor string of a new comment block, whether it takes a
vendor string or an entry, and its legality checks; `none` is the absence of a violation. -/
structure LibFlacMetadata where
  vendor : Text
  setVendorString : List UInt8 → Bool
  appendComment : List UInt8 → Bool
  seekTableIsLegal : List SeekPoint → Bool
  cueSheetViolation : CueSheet → Bool → Option String

/-- The result of a builder. The error is the pending exception, if there is one. -/
abbrev Build (α : Type) := Except (Option Throwable) α

variable (lib : LibFlacMetadata)

/-- `UINT32_MAX`. -/
def uint32Max : ℕ := 4294967295

/-- A string as `jstring_to_utf8` and `strlen` see it. -/
def nativeString (text : Text) : List UInt8 := cString (utf8 text)

/-! ## Comments -/

/-- The entry that `build_vorbis_comment_block` appends: `KEY=` for an entry without separator. -/
def normalisedEntry (entry : List UInt8) : Build (List UInt8) :=
  if asciiByte '=' ∉ entry then
    if uint32Max - 1 < entry.length then .error none else .ok (entry ++ [asciiByte '='])
  else if uint32Max < entry.length then .error none
  else .ok entry

/-- The loop over the entries. -/
def appendComments : List Text → Build (List (List UInt8))
  | [] => .ok []
  | entry :: entries => do
    let bytes ← normalisedEntry (nativeString entry)
    if lib.appendComment bytes then
      let rest ← appendComments entries
      .ok (bytes :: rest)
    else .error none

/-- `build_vorbis_comment_block`; `none` is a null block. -/
def buildVorbisCommentBlock (vendor : Option Text) (entries : List Text) (forceCreate : Bool) :
    Build (Option StreamMetadata) :=
  if forceCreate = false ∧ vendor = none ∧ entries = [] then .ok none
  else
    match vendor with
    | some vendor =>
      if lib.setVendorString (nativeString vendor) then do
        let comments ← appendComments lib entries
        .ok (some (.vorbisComment (nativeString vendor) comments))
      else .error none
    | none => do
      let comments ← appendComments lib entries
      .ok (some (.vorbisComment (utf8 lib.vendor) comments))

/-! ## Seek tables and cue sheets -/

/-- One point of `build_seek_table_block`; the last field has 16 bits in the file. -/
def nativeSeekPoint (point : FlacSeekPoint) : SeekPoint where
  sampleNumber := if point.sampleNumber = -1 then BitVec.allOnes 64 else point.sampleNumber.toBitVec
  streamOffset := point.streamOffset.toBitVec
  frameSamples := point.frameSamples.toBitVec.setWidth 16

/-- `build_seek_table_block`. -/
def buildSeekTableBlock (table : FlacSeekTable) : Build StreamMetadata :=
  if lib.seekTableIsLegal (table.points.map nativeSeekPoint) then
    .ok (.seekTable (table.points.map nativeSeekPoint))
  else .error (some (.flacEncodeException "SEEKTABLE metadata block is not legal."))

/-- `copy_fixed_ascii_field` into a field of `size` bytes and a NUL. -/
def copyFixedAsciiField (size : ℕ) (source : List UInt8) : Option (Vector UInt8 size) :=
  if h : source.length < size + 1 then
    some ⟨(source ++ List.replicate (size - source.length) 0).toArray, by simp; omega⟩
  else none

/-- One index of `fill_cue_sheet_track`. -/
def nativeCueSheetIndex (index : FlacCueSheetIndex) : CueSheetIndex where
  offset := index.offset.toBitVec
  number := index.number.toBitVec.setWidth 8

/-- `fill_cue_sheet_track`; type and pre-emphasis are bit-fields. -/
def fillCueSheetTrack (track : FlacCueSheetTrack) : Build CueSheetTrack :=
  match copyFixedAsciiField 12 (nativeString track.isrc) with
  | none => .error (some (.illegalArgumentException "CUESHEET track ISRC is too long."))
  | some isrc =>
    .ok
      { offset := track.offset.toBitVec
        number := track.number.toBitVec.setWidth 8
        isrc
        type := track.type.toBitVec.setWidth 1
        preEmphasis := if track.preEmphasis then 1 else 0
        indices := track.indices.map nativeCueSheetIndex }

/-- The loop over the tracks. -/
def fillCueSheetTracks : List FlacCueSheetTrack → Build (List CueSheetTrack)
  | [] => .ok []
  | track :: tracks => do
    let track ← fillCueSheetTrack track
    let tracks ← fillCueSheetTracks tracks
    .ok (track :: tracks)

/-- The native sheet that `build_cue_sheet_block` fills. -/
def fillCueSheet (sheet : FlacCueSheet) : Build CueSheet :=
  match copyFixedAsciiField 128 (nativeString sheet.mediaCatalogNumber) with
  | none =>
    .error (some (.illegalArgumentException "CUESHEET media catalog number is too long."))
  | some mediaCatalogNumber => do
    let tracks ← fillCueSheetTracks sheet.tracks
    .ok ⟨mediaCatalogNumber, sheet.leadIn.toBitVec, sheet.isCd, tracks⟩

/-- `build_cue_sheet_block`. -/
def buildCueSheetBlock (sheet : FlacCueSheet) : Build StreamMetadata := do
  let native ← fillCueSheet sheet
  match lib.cueSheetViolation native sheet.isCd with
  | some violation =>
    .error (some (.flacEncodeException
      ("CUESHEET metadata block is not legal: " ++ violation ++ ".")))
  | none => .ok (.cueSheet native)

/-! ## The other blocks -/

/-- `build_picture_block`. -/
def buildPictureBlock (picture : FlacPicture) : StreamMetadata :=
  .picture
    { type := picture.type.toBitVec
      mimeType := nativeString picture.mimeType
      description := nativeString picture.description
      width := picture.width.toBitVec
      height := picture.height.toBitVec
      depth := picture.depth.toBitVec
      colors := picture.colors.toBitVec
      data := picture.data }

/-- `build_application_block`. -/
def buildApplicationBlock (application : FlacApplicationBlock) : StreamMetadata :=
  .application application.id application.data

/-- `build_padding_block`. -/
def buildPaddingBlock (padding : FlacPaddingBlock) : Build StreamMetadata :=
  if padding.length < 0 ∨ (maxBlockLength : ℤ) < padding.length then
    .error (some (.illegalArgumentException
      "PADDING metadata length must fit the FLAC 24-bit metadata length field."))
  else .ok (.padding padding.length.toNat)

/-- `build_unknown_metadata_block`. -/
def buildUnknownMetadataBlock (unknown : FlacUnknownMetadataBlock) : Build StreamMetadata :=
  if h : unknown.type < 7 ∨ 126 < unknown.type then
    .error (some (.illegalArgumentException
      "Unknown metadata type must be in the FLAC reserved range 7..126."))
  else if maxBlockLength < unknown.data.length then
    .error (some (.illegalArgumentException
      "Unknown metadata payload length must fit the FLAC 24-bit metadata length field."))
  else .ok (.unknown ⟨unknown.type.toNat, by omega, by omega⟩ unknown.data)

/-! ## Block lists -/

/-- `ensure_metadata_block_length_fits`. -/
def ensureMetadataBlockLengthFits : Option StreamMetadata → Build (Option StreamMetadata)
  | none => .ok none
  | some block =>
    if maxBlockLength < block.length then
      .error (some (.illegalArgumentException
        "FLAC metadata length must fit the 24-bit metadata length field."))
    else .ok (some block)

/-- The `switch` of `build_ordered_metadata_block`. -/
def buildBlock : FlacMetadataBlock → Build (Option StreamMetadata)
  | .padding padding => (buildPaddingBlock padding).map some
  | .application application => .ok (some (buildApplicationBlock application))
  | .seekTable table => (buildSeekTableBlock lib table).map some
  | .vorbisComment comment =>
    buildVorbisCommentBlock lib (some comment.vendor) (flattenGroups comment.comments.entries) true
  | .cueSheet sheet => (buildCueSheetBlock lib sheet).map some
  | .picture picture => .ok (some (buildPictureBlock picture))
  | .unknown unknown => (buildUnknownMetadataBlock unknown).map some

/-- `build_ordered_metadata_block`. -/
def buildOrderedMetadataBlock (block : FlacMetadataBlock) : Build (Option StreamMetadata) := do
  let native ← buildBlock lib block
  ensureMetadataBlockLengthFits native

/-- `build_ordered_metadata_blocks`. -/
def buildOrderedMetadataBlocks : List FlacMetadataBlock → Build (List (Option StreamMetadata))
  | [] => .ok []
  | block :: blocks => do
    let native ← buildOrderedMetadataBlock lib block
    let natives ← buildOrderedMetadataBlocks blocks
    .ok (native :: natives)

/-- The comment block of `build_metadata_blocks`. -/
def buildGroupedComments (entries : List Text) : Build (List (Option StreamMetadata)) :=
  if entries = [] then .ok []
  else do
    let native ← buildVorbisCommentBlock lib none entries false
    let native ← ensureMetadataBlockLengthFits native
    .ok [native]

/-- `total_blocks_64`. -/
def totalBlocks (metadata : FlacEncodingMetadata) : ℕ :=
  (if flattenGroups metadata.comments.entries = [] then 0 else 1) + metadata.pictures.length +
    metadata.applicationBlocks.length + metadata.seekTables.length + metadata.cueSheets.length +
    metadata.paddingBlocks.length + metadata.unknownBlocks.length

/-- `build_metadata_blocks`; `build_metadata_array_blocks` builds each array as the ordered mode
builds the blocks of this type. -/
def buildMetadataBlocks (metadata : FlacEncodingMetadata) :
    Build (List (Option StreamMetadata)) :=
  if uint32Max < totalBlocks metadata then
    .error (some (.flacEncodeException "Too many FLAC metadata blocks were requested."))
  else do
    let comments ← buildGroupedComments lib (flattenGroups metadata.comments.entries)
    let pictures ← buildOrderedMetadataBlocks lib (metadata.pictures.map .picture)
    let applications ← buildOrderedMetadataBlocks lib (metadata.applicationBlocks.map .application)
    let seekTables ← buildOrderedMetadataBlocks lib (metadata.seekTables.map .seekTable)
    let cueSheets ← buildOrderedMetadataBlocks lib (metadata.cueSheets.map .cueSheet)
    let paddings ← buildOrderedMetadataBlocks lib (metadata.paddingBlocks.map .padding)
    let unknowns ← buildOrderedMetadataBlocks lib (metadata.unknownBlocks.map .unknown)
    .ok (comments ++ pictures ++ applications ++ seekTables ++ cueSheets ++ paddings ++ unknowns)

/-- The blocks that are built for metadata: a list of blocks wins over the grouped fields. -/
def buildBlocks (metadata : FlacEncodingMetadata) : Build (List (Option StreamMetadata)) :=
  if metadata.blocks ≠ [] then buildOrderedMetadataBlocks lib metadata.blocks
  else buildMetadataBlocks lib metadata

/-- `writeMetadata`: the chain that is written, where null blocks are skipped. -/
def writeMetadata (chain : List StreamMetadata) (metadata : FlacEncodingMetadata) :
    Except Throwable (List StreamMetadata) :=
  match chain with
  | .streamInfo info :: _ =>
    match buildBlocks lib metadata with
    | .ok natives => .ok (.streamInfo info :: natives.reduceOption)
    | .error (some exception) => .error exception
    | .error none =>
      .error (.flacMetadataEditException "Failed to build FLAC metadata edit blocks.")
  | _ =>
    .error (.flacMetadataEditException
      "FLAC file does not contain a leading STREAMINFO metadata block.")

end JFlac.Metadata
