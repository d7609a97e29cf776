import JFlac.Metadata.Comments

/-!
# Reading metadata

`readMetadata` goes over a metadata chain eight times: it counts the blocks of each type, fills one
array per type, and records type and array index of every block other than STREAMINFO.
`toPublicMetadata` follows the recorded indices into the arrays. The passes classify blocks by
conditions of their own; the arrays have the sizes that were counted first.
-/

namespace JFlac.Metadata

/-- Exceptions that the JVM raises by itself on the way. -/
def arrayIndexOutOfBounds : Throwable := .java 1

def nullPointer : Throwable := .java 2

/-- Reading a union member of a block of another type: undefined in C. -/
def wrongMember : Throwable := .java 3

variable (decoder : Utf8Decoder)

/-! ## One block -/

/-- `new_utf8_string`. -/
def newUtf8String (bytes : List UInt8) : Except Throwable Text :=
  if intMax < bytes.length then
    .error (.flacDecodeException "UTF-8 metadata text is too large for one JVM byte array.")
  else .ok (decoder.decode bytes)

/-- The constructor of `FlacPaddingBlock`. -/
def FlacPaddingBlock.make (length : ℤ) : Except Throwable FlacPaddingBlock :=
  if h : 0 ≤ length ∧ length ≤ maxBlockLength then .ok ⟨length, h.1, h.2⟩
  else .error (.illegalArgumentException
    "PADDING metadata length must fit the FLAC 24-bit metadata length field.")

/-- The constructor of `FlacUnknownMetadataBlock`. -/
def FlacUnknownMetadataBlock.make (type : ℤ) (data : List UInt8) :
    Except Throwable FlacUnknownMetadataBlock :=
  if htype : 7 ≤ type ∧ type ≤ 126 then
    if hlength : data.length ≤ maxBlockLength then
      .ok ⟨type, data, htype.1, htype.2, hlength⟩
    else .error (.illegalArgumentException
      "Unknown metadata payload length must fit the FLAC 24-bit metadata length field.")
  else .error (.illegalArgumentException
    "Unknown metadata type must be in the FLAC reserved range 7..126.")

/-- `new_stream_info`. -/
def newStreamInfo (info : StreamInfo) : FlacStreamInfo where
  sampleRate := (info.sampleRate.setWidth 32).toInt
  channels := info.channels
  bitsPerSample := info.bitsPerSample
  totalSamples := (info.totalSamples.setWidth 64).toInt
  minBlockSize := (info.minBlockSize.setWidth 32).toInt
  maxBlockSize := (info.maxBlockSize.setWidth 32).toInt
  minFrameSize := (info.minFrameSize.setWidth 32).toInt
  maxFrameSize := (info.maxFrameSize.setWidth 32).toInt
  md5Signature := info.md5sum

/-- `new_padding_block`. -/
def newPaddingBlock : StreamMetadata → Except Throwable FlacPaddingBlock
  | .padding length => FlacPaddingBlock.make (BitVec.ofNat 32 length).toInt
  | _ => .error wrongMember

/-- `new_application_block`. -/
def newApplicationBlock : StreamMetadata → Except Throwable FlacApplicationBlock
  | .application id data =>
    if intMax < data.length then
      .error (.flacDecodeException
        "APPLICATION metadata block is too large for one JVM ByteArray.")
    else .ok ⟨id, data⟩
  | _ => .error wrongMember

/-- `new_unknown_metadata_block`. -/
def newUnknownMetadataBlock : StreamMetadata → Except Throwable FlacUnknownMetadataBlock
  | .unknown type data =>
    if intMax < data.length then
      .error (.flacDecodeException "Unknown metadata block is too large for one JVM ByteArray.")
    else FlacUnknownMetadataBlock.make type.code data
  | _ => .error wrongMember

/-- One point of `new_seek_table`: the placeholder is -1, other numbers are cast to `jlong`. -/
def newSeekPoint (point : SeekPoint) : FlacSeekPoint where
  sampleNumber := if point.sampleNumber = BitVec.allOnes 64 then -1 else .ofBitVec point.sampleNumber
  streamOffset := .ofBitVec point.streamOffset
  frameSamples := .ofBitVec (point.frameSamples.setWidth 32)

/-- `new_seek_table`. -/
def newSeekTable : StreamMetadata → Except Throwable FlacSeekTable
  | .seekTable points => .ok ⟨points.map newSeekPoint⟩
  | _ => .error wrongMember

/-- `new_cue_sheet_index`. -/
def newCueSheetIndex (index : CueSheetIndex) : FlacCueSheetIndex where
  offset := .ofBitVec index.offset
  number := .ofBitVec (index.number.setWidth 32)

/-- `new_cue_sheet_track`. -/
def newCueSheetTrack (track : CueSheetTrack) : Except Throwable FlacCueSheetTrack :=
  match newUtf8String decoder (cString track.isrc.toList) with
  | .error e => .error e
  | .ok isrc =>
    .ok
      { offset := .ofBitVec track.offset
        number := .ofBitVec (track.number.setWidth 32)
        isrc
        type := .ofBitVec (track.type.setWidth 32)
        preEmphasis := track.preEmphasis ≠ 0
        indices := track.indices.map newCueSheetIndex }

/-- The tracks of `new_cue_sheet`. -/
def newCueSheetTracks : List CueSheetTrack → Except Throwable (List FlacCueSheetTrack)
  | [] => .ok []
  | track :: tracks =>
    match newCueSheetTrack decoder track with
    | .error e => .error e
    | .ok track =>
      match newCueSheetTracks tracks with
      | .error e => .error e
      | .ok tracks => .ok (track :: tracks)

/-- `new_cue_sheet`. -/
def newCueSheet : StreamMetadata → Except Throwable FlacCueSheet
  | .cueSheet sheet =>
    match newCueSheetTracks decoder sheet.tracks with
    | .error e => .error e
    | .ok tracks =>
      match newUtf8String decoder (cString sheet.mediaCatalogNumber.toList) with
      | .error e => .error e
      | .ok mediaCatalogNumber =>
        .ok ⟨mediaCatalogNumber, .ofBitVec sheet.leadIn, sheet.isCd, tracks⟩
  | _ => .error wrongMember

/-- `new_picture`. -/
def newPicture : StreamMetadata → Except Throwable FlacPicture
  | .picture p =>
    if intMax < p.data.length then
      .error (.flacDecodeException "PICTURE metadata data is too large for one JVM ByteArray.")
    else
      match newUtf8String decoder (cString p.mimeType) with
      | .error e => .error e
      | .ok mimeType =>
        match newUtf8String decoder (cString p.description) with
        | .error e => .error e
        | .ok description =>
          .ok ⟨.ofBitVec p.type, mimeType, description, .ofBitVec p.width, .ofBitVec p.height,
            .ofBitVec p.depth, .ofBitVec p.colors, p.data⟩
  | _ => .error wrongMember

/-- The entry strings of the comment block. -/
def newEntries : List (List UInt8) → Except Throwable (List Text)
  | [] => .ok []
  | entry :: entries =>
    match newUtf8String decoder entry with
    | .error e => .error e
    | .ok entry =>
      match newEntries entries with
      | .error e => .error e
      | .ok entries => .ok (entry :: entries)

/-- Vendor and entry strings of the comment block; there are none without one. -/
def newVorbisComment : Option StreamMetadata → Except Throwable (Option Text × List Text)
  | none => .ok (none, [])
  | some (.vorbisComment vendor comments) =>
    match newUtf8String decoder vendor with
    | .error e => .error e
    | .ok vendor =>
      match newEntries decoder comments with
      | .error e => .error e
      | .ok entries => .ok (some vendor, entries)
  | some _ => .error wrongMember

/-! ## The counting pass -/

/-- The block types that the read path tells apart. -/
inductive Kind where
  | vorbisComment
  | picture
  | application
  | seekTable
  | cueSheet
  | padding
  | unknown
  deriving DecidableEq, Repr

/-- The `switch` on `block->type`; `none` is STREAMINFO. -/
def switchKind : ℕ → Option Kind
  | 0 => none
  | 1 => some .padding
  | 2 => some .application
  | 3 => some .seekTable
  | 4 => some .vorbisComment
  | 5 => some .cueSheet
  | 6 => some .picture
  | _ => some .unknown

/-- The results of the first pass: the two blocks it remembers and its counters. -/
structure Counts where
  streamInfo : Option StreamMetadata
  vorbis : Option StreamMetadata
  count : Kind → ℕ
  ordered : ℕ

/-- One round of the first pass. -/
def countStep (s : Counts) (block : StreamMetadata) : Counts :=
  match switchKind block.type with
  | none => { s with streamInfo := some block }
  | some kind =>
    { s with
      vorbis := if kind = .vorbisComment then some block else s.vorbis
      count := Function.update s.count kind (s.count kind + 1)
      ordered := s.ordered + 1 }

/-- The first pass. -/
def countPass (chain : List StreamMetadata) : Counts :=
  chain.foldl countStep ⟨none, none, fun _ => 0, 0⟩

/-! ## The fill passes -/

/-- The condition under which the fill pass of a type takes a block. -/
def fills : Kind → ℕ → Bool
  | .vorbisComment, type => type == 4
  | .picture, type => type == 6
  | .application, type => type == 2
  | .seekTable, type => type == 3
  | .cueSheet, type => type == 5
  | .padding, type => type == 1
  | .unknown, type => decide (7 ≤ type)

/-- `SetObjectArrayElement`. -/
def setElement {α : Type} (slots : List (Option α)) (index : ℕ) (value : α) :
    Except Throwable (List (Option α)) :=
  if index < slots.length then .ok (slots.set index (some value)) else .error arrayIndexOutOfBounds

/-- A pass over the chain that converts the blocks of one type into the next slots of an array. -/
def fillPass {α : Type} (selects : ℕ → Bool) (convert : StreamMetadata → Except Throwable α) :
    List StreamMetadata → List (Option α) → ℕ → Except Throwable (List (Option α))
  | [], slots, _ => .ok slots
  | block :: rest, slots, index =>
    if selects block.type then
      match convert block with
      | .error e => .error e
      | .ok value =>
        match setElement slots index value with
        | .error e => .error e
        | .ok slots => fillPass selects convert rest slots (index + 1)
    else fillPass selects convert rest slots index

/-- The elements of an array without null slots. -/
def elements {α : Type} : List (Option α) → Except Throwable (List α)
  | [] => .ok []
  | none :: _ => .error nullPointer
  | some value :: slots =>
    match elements slots with
    | .error e => .error e
    | .ok values => .ok (value :: values)

/-- A fill pass into a new array of the counted size. -/
def filledArray {α : Type} (kind : Kind) (count : ℕ) (convert : StreamMetadata → Except Throwable α)
    (chain : List StreamMetadata) : Except Throwable (List α) :=
  match fillPass (fills kind) convert chain (List.replicate count none) 0 with
  | .error e => .error e
  | .ok slots => elements slots

/-! ## The order pass -/

/-- `SetIntArrayRegion` of one element. -/
def setInt (array : List ℕ) (index value : ℕ) : Except Throwable (List ℕ) :=
  if index < array.length then .ok (array.set index value) else .error arrayIndexOutOfBounds

/-- The last pass: the type of every block and its index among the blocks of its type. -/
def orderPass : List StreamMetadata → List ℕ → List ℕ → ℕ → (Kind → ℕ) →
    Except Throwable (List ℕ × List ℕ)
  | [], types, indices, _, _ => .ok (types, indices)
  | block :: rest, types, indices, ordered, counter =>
    match switchKind block.type with
    | none => orderPass rest types indices ordered counter
    | some kind =>
      let index := if kind = .vorbisComment then 0 else counter kind
      match setInt types ordered block.type with
      | .error e => .error e
      | .ok types =>
        match setInt indices ordered index with
        | .error e => .error e
        | .ok indices =>
          orderPass rest types indices (ordered + 1)
            (Function.update counter kind (counter kind + 1))

/-! ## The payload -/

/-- `NativeMetadataPayload`. -/
structure NativeMetadataPayload where
  streamInfo : FlacStreamInfo
  vendor : Option Text
  commentEntries : List Text
  pictures : List FlacPicture
  applicationBlocks : List FlacApplicationBlock
  seekTables : List FlacSeekTable
  cueSheets : List FlacCueSheet
  paddingBlocks : List FlacPaddingBlock
  unknownBlocks : List FlacUnknownMetadataBlock
  metadataBlockTypes : List ℕ
  metadataBlockIndices : List ℕ
  deriving DecidableEq, Repr

/-- `readMetadata` on a chain that libFLAC could read. -/
def readMetadata (chain : List StreamMetadata) : Except Throwable NativeMetadataPayload :=
  let counts := countPass chain
  match counts.streamInfo with
  | some (.streamInfo info) =>
    if 1 < counts.count .vorbisComment then
      .error (.flacDecodeException ("FLAC file contains multiple VORBIS_COMMENT metadata blocks, " ++
        "which this API cannot represent exactly."))
    else do
      let (vendor, commentEntries) ← newVorbisComment decoder counts.vorbis
      let pictures ← filledArray .picture (counts.count .picture) (newPicture decoder) chain
      let applicationBlocks ←
        filledArray .application (counts.count .application) newApplicationBlock chain
      let seekTables ← filledArray .seekTable (counts.count .seekTable) newSeekTable chain
      let cueSheets ← filledArray .cueSheet (counts.count .cueSheet) (newCueSheet decoder) chain
      let paddingBlocks ← filledArray .padding (counts.count .padding) newPaddingBlock chain
      let unknownBlocks ← filledArray .unknown (counts.count .unknown) newUnknownMetadataBlock chain
      let (types, indices) ← orderPass chain (List.replicate counts.ordered 0)
        (List.replicate counts.ordered 0) 0 fun _ => 0
      .ok ⟨newStreamInfo info, vendor, commentEntries, pictures, applicationBlocks, seekTables,
        cueSheets, paddingBlocks, unknownBlocks, types, indices⟩
  | some _ => .error wrongMember
  | none => .error (.flacDecodeException "FLAC file does not contain STREAMINFO.")

/-- The public comment of a payload. -/
def NativeMetadataPayload.vorbisComment (payload : NativeMetadataPayload) :
    Option FlacVorbisComment :=
  payload.vendor.map fun vendor => ⟨vendor, commentMap payload.commentEntries⟩

/-- The block behind one entry of the order table, if its index resolves. -/
def NativeMetadataPayload.lookup (payload : NativeMetadataPayload) (type index : ℕ) :
    Option FlacMetadataBlock :=
  match type with
  | 1 => payload.paddingBlocks[index]?.map .padding
  | 2 => payload.applicationBlocks[index]?.map .application
  | 3 => payload.seekTables[index]?.map .seekTable
  | 4 => payload.vorbisComment.map .vorbisComment
  | 5 => payload.cueSheets[index]?.map .cueSheet
  | 6 => payload.pictures[index]?.map .picture
  | _ => payload.unknownBlocks[index]?.map .unknown

/-- `toPublicMetadata`. -/
def NativeMetadataPayload.toPublicMetadata (payload : NativeMetadataPayload) : FlacMetadata where
  streamInfo := payload.streamInfo
  vorbisComment := payload.vorbisComment
  pictures := payload.pictures
  applicationBlocks := payload.applicationBlocks
  seekTables := payload.seekTables
  cueSheets := payload.cueSheets
  paddingBlocks := payload.paddingBlocks
  unknownBlocks := payload.unknownBlocks
  blocks := (payload.metadataBlockTypes.zip payload.metadataBlockIndices).filterMap fun entry =>
    payload.lookup entry.1 entry.2

end JFlac.Metadata
