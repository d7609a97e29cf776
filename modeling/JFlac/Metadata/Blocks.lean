import JFlac.Basic
import JFlac.Metadata.Text

/-!
# Metadata blocks

Two models of the same blocks. `StreamMetadata` is what libFLAC stores: unsigned fields of the FLAC
bit widths and bytes. The `Flac…` types are the public Kotlin models: signed numbers and strings.
The checks of the Kotlin constructors are fields of the types, so that only constructible values
exist.
-/

namespace JFlac.Metadata

/-- `FLAC_METADATA_MAX_BLOCK_LENGTH`, the largest 24-bit length. -/
def maxBlockLength : ℕ := 16777215

/-! ## Native blocks -/

/-- `FLAC__StreamMetadata_SeekPoint`. -/
structure SeekPoint where
  sampleNumber : BitVec 64
  streamOffset : BitVec 64
  frameSamples : BitVec 16
  deriving DecidableEq, Repr

/-- `FLAC__StreamMetadata_CueSheet_Index`. -/
structure CueSheetIndex where
  offset : BitVec 64
  number : BitVec 8
  deriving DecidableEq, Repr

/-- `FLAC__StreamMetadata_CueSheet_Track`; `isrc` is a NUL-padded field of 12 bytes. -/
structure CueSheetTrack where
  offset : BitVec 64
  number : BitVec 8
  isrc : Vector UInt8 12
  type : BitVec 1
  preEmphasis : BitVec 1
  indices : List CueSheetIndex
  deriving DecidableEq, Repr

/-- `FLAC__StreamMetadata_CueSheet`; the catalog number is a NUL-padded field of 128 bytes. -/
structure CueSheet where
  mediaCatalogNumber : Vector UInt8 128
  leadIn : BitVec 64
  isCd : Bool
  tracks : List CueSheetTrack
  deriving DecidableEq, Repr

/-- `FLAC__StreamMetadata_Picture`. -/
structure Picture where
  type : BitVec 32
  mimeType : List UInt8
  description : List UInt8
  width : BitVec 32
  height : BitVec 32
  depth : BitVec 32
  colors : BitVec 32
  data : List UInt8
  deriving DecidableEq, Repr

/-- `FLAC__StreamMetadata_StreamInfo`. -/
structure StreamInfo where
  sampleRate : BitVec 20
  channels : ℕ
  bitsPerSample : ℕ
  totalSamples : BitVec 36
  minBlockSize : BitVec 16
  maxBlockSize : BitVec 16
  minFrameSize : BitVec 24
  maxFrameSize : BitVec 24
  md5sum : Vector UInt8 16
  deriving DecidableEq, Repr

/-- A type code that libFLAC reserves for blocks it does not know. -/
structure UnknownType where
  code : ℕ
  min_le : 7 ≤ code
  le_max : code ≤ 126
  deriving DecidableEq, Repr

/-- `FLAC__StreamMetadata`. -/
inductive StreamMetadata where
  | streamInfo (info : StreamInfo)
  | padding (length : ℕ)
  | application (id : Vector UInt8 4) (data : List UInt8)
  | seekTable (points : List SeekPoint)
  | vorbisComment (vendor : List UInt8) (comments : List (List UInt8))
  | cueSheet (sheet : CueSheet)
  | picture (picture : Picture)
  | unknown (type : UnknownType) (data : List UInt8)
  deriving DecidableEq, Repr

namespace StreamMetadata

/-- `block->type`. -/
def type : StreamMetadata → ℕ
  | streamInfo _ => 0
  | padding _ => 1
  | application _ _ => 2
  | seekTable _ => 3
  | vorbisComment _ _ => 4
  | cueSheet _ => 5
  | picture _ => 6
  | unknown type _ => type.code

/-- `block->length`: the bytes of the block body. -/
def length : StreamMetadata → ℕ
  | streamInfo _ => 34
  | padding length => length
  | application _ data => 4 + data.length
  | seekTable points => 18 * points.length
  | vorbisComment vendor comments =>
    8 + vendor.length + (comments.map fun entry => 4 + entry.length).sum
  | cueSheet sheet => 396 + (sheet.tracks.map fun track => 36 + 12 * track.indices.length).sum
  | picture p => 32 + p.mimeType.length + p.description.length + p.data.length
  | unknown _ data => data.length

/-- What the bit widths of a FLAC file leave possible: the body fits the 24-bit length, and the
tracks and indices of a cue sheet fit their 8-bit counts. -/
structure Fits (block : StreamMetadata) : Prop where
  length_le : block.length ≤ maxBlockLength
  counts : ∀ sheet, block = cueSheet sheet →
    sheet.tracks.length ≤ 255 ∧ ∀ track ∈ sheet.tracks, track.indices.length ≤ 255

end StreamMetadata

/-! ## Public models -/

/-- A `Map<String, List<String>>`, in the order of its iteration. -/
structure CommentMap where
  entries : List (Text × List Text)
  nodup : (entries.map Prod.fst).Nodup
  deriving DecidableEq, Repr

/-- `emptyMap()`. -/
def CommentMap.empty : CommentMap := ⟨[], List.nodup_nil⟩

/-- `FlacVorbisComment`. -/
structure FlacVorbisComment where
  vendor : Text
  comments : CommentMap
  deriving DecidableEq, Repr

structure FlacPicture where
  type : Int32
  mimeType : Text
  description : Text
  width : Int32
  height : Int32
  depth : Int32
  colors : Int32
  data : List UInt8
  deriving DecidableEq, Repr

/-- `FlacApplicationBlock`; its constructor requires an id of four bytes. -/
structure FlacApplicationBlock where
  id : Vector UInt8 4
  data : List UInt8
  deriving DecidableEq, Repr

structure FlacSeekPoint where
  sampleNumber : Int64
  streamOffset : Int64
  frameSamples : Int32
  deriving DecidableEq, Repr

structure FlacSeekTable where
  points : List FlacSeekPoint
  deriving DecidableEq, Repr

structure FlacCueSheetIndex where
  offset : Int64
  number : Int32
  deriving DecidableEq, Repr

structure FlacCueSheetTrack where
  offset : Int64
  number : Int32
  isrc : Text
  type : Int32
  preEmphasis : Bool
  indices : List FlacCueSheetIndex
  deriving DecidableEq, Repr

structure FlacCueSheet where
  mediaCatalogNumber : Text
  leadIn : Int64
  isCd : Bool
  tracks : List FlacCueSheetTrack
  deriving DecidableEq, Repr

/-- `FlacPaddingBlock`; its constructor requires a 24-bit length. -/
structure FlacPaddingBlock where
  length : ℤ
  nonneg : 0 ≤ length
  length_le : length ≤ maxBlockLength
  deriving DecidableEq, Repr

/-- `FlacUnknownMetadataBlock`; its constructor requires a reserved type and a 24-bit length. -/
structure FlacUnknownMetadataBlock where
  type : ℤ
  data : List UInt8
  min_le : 7 ≤ type
  le_max : type ≤ 126
  length_le : data.length ≤ maxBlockLength
  deriving DecidableEq, Repr

/-- `FlacStreamInfo`; its constructor requires a digest of 16 bytes. -/
structure FlacStreamInfo where
  sampleRate : ℤ
  channels : ℤ
  bitsPerSample : ℤ
  totalSamples : ℤ
  minBlockSize : ℤ
  maxBlockSize : ℤ
  minFrameSize : ℤ
  maxFrameSize : ℤ
  md5Signature : Vector UInt8 16
  deriving DecidableEq, Repr

/-- `FlacMetadataBlock`. -/
inductive FlacMetadataBlock where
  | vorbisComment (comment : FlacVorbisComment)
  | picture (picture : FlacPicture)
  | application (application : FlacApplicationBlock)
  | seekTable (seekTable : FlacSeekTable)
  | cueSheet (cueSheet : FlacCueSheet)
  | padding (padding : FlacPaddingBlock)
  | unknown (unknown : FlacUnknownMetadataBlock)
  deriving DecidableEq, Repr

/-- `FlacMetadata`. -/
structure FlacMetadata where
  streamInfo : FlacStreamInfo
  vorbisComment : Option FlacVorbisComment
  pictures : List FlacPicture
  applicationBlocks : List FlacApplicationBlock
  seekTables : List FlacSeekTable
  cueSheets : List FlacCueSheet
  paddingBlocks : List FlacPaddingBlock
  unknownBlocks : List FlacUnknownMetadataBlock
  blocks : List FlacMetadataBlock
  deriving DecidableEq, Repr

/-- `FlacEncodingMetadata`. -/
structure FlacEncodingMetadata where
  comments : CommentMap
  pictures : List FlacPicture
  applicationBlocks : List FlacApplicationBlock
  seekTables : List FlacSeekTable
  cueSheets : List FlacCueSheet
  paddingBlocks : List FlacPaddingBlock
  unknownBlocks : List FlacUnknownMetadataBlock
  blocks : List FlacMetadataBlock
  deriving DecidableEq, Repr

/-- `FlacMetadata.toEncodingMetadata`. -/
def FlacMetadata.toEncodingMetadata (metadata : FlacMetadata) : FlacEncodingMetadata where
  comments := metadata.vorbisComment.elim CommentMap.empty (·.comments)
  pictures := metadata.pictures
  applicationBlocks := metadata.applicationBlocks
  seekTables := metadata.seekTables
  cueSheets := metadata.cueSheets
  paddingBlocks := metadata.paddingBlocks
  unknownBlocks := metadata.unknownBlocks
  blocks := metadata.blocks

/-- `FlacMetadataEditSession.toEncodingMetadata` for the blocks of the session. -/
def sessionMetadata (mutableBlocks : List FlacMetadataBlock) : FlacEncodingMetadata where
  comments := CommentMap.empty
  pictures := []
  applicationBlocks := []
  seekTables := []
  cueSheets := []
  paddingBlocks := []
  unknownBlocks := []
  blocks := mutableBlocks

namespace FlacMetadataBlock

/-- `nativeType`. -/
def nativeType : FlacMetadataBlock → ℤ
  | vorbisComment _ => 4
  | picture _ => 6
  | application _ => 2
  | seekTable _ => 3
  | cueSheet _ => 5
  | padding _ => 1
  | unknown block => block.type

end FlacMetadataBlock

end JFlac.Metadata
