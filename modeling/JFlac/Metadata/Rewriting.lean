import JFlac.Metadata.Order
import JFlac.Metadata.Validation

/-!
# Writing back what was read

The validators were written for values of callers. What a file holds can lie outside of them: numbers
too large for the signed types of the public models, several seek tables, keys and MIME types that
are blank, text with NUL. `Rewritable` collects the conditions, on the chain itself.
-/

namespace JFlac.Metadata

open Lib

variable (decoder : Utf8Decoder)

/-! ## Unsigned fields as signed numbers -/

theorem nonneg_ofBitVec_32 (x : BitVec 32) : 0 ≤ Int32.ofBitVec x ↔ x.toNat < 2147483648 := by
  have := x.isLt
  rw [Int32.le_iff_toInt_le, Int32.toInt_ofBitVec, BitVec.toInt_eq_toNat_cond]
  show (0 : ℤ) ≤ _ ↔ _
  split <;> omega

theorem nonneg_ofBitVec_64 (x : BitVec 64) :
    0 ≤ Int64.ofBitVec x ↔ x.toNat < 9223372036854775808 := by
  have := x.isLt
  rw [Int64.le_iff_toInt_le, Int64.toInt_ofBitVec, BitVec.toInt_eq_toNat_cond]
  show (0 : ℤ) ≤ _ ↔ _
  split <;> omega

theorem newSeekPoint_sampleNumber (point : SeekPoint) :
    -1 ≤ (newSeekPoint point).sampleNumber ↔
      point.sampleNumber = BitVec.allOnes 64 ∨ point.sampleNumber.toNat < 9223372036854775808 := by
  show -1 ≤ (if point.sampleNumber = BitVec.allOnes 64 then -1
    else Int64.ofBitVec point.sampleNumber) ↔ _
  by_cases h : point.sampleNumber = BitVec.allOnes 64
  · simp [h]
  · have hne : point.sampleNumber.toNat ≠ 18446744073709551615 :=
      fun he => h (BitVec.eq_of_toNat_eq (by simpa using he))
    have := point.sampleNumber.isLt
    rw [if_neg h, Int64.le_iff_toInt_le, Int64.toInt_ofBitVec, BitVec.toInt_eq_toNat_cond]
    simp only [h, false_or]
    show (-1 : ℤ) ≤ _ ↔ _
    split <;> omega

/-- A narrow field passes the check of its width. -/
theorem ofNat_mem_range {n m : ℕ} (h : n ≤ m) (hm : m < 2147483648) :
    0 ≤ Int32.ofNat n ∧ Int32.ofNat n ≤ Int32.ofNat m := by
  rw [Int32.le_iff_toInt_le, Int32.le_iff_toInt_le, Int32.toInt_ofNat_of_lt (by omega),
    Int32.toInt_ofNat_of_lt (by omega)]
  exact ⟨Int.natCast_nonneg n, Int.ofNat_le.mpr h⟩

/-! ## The conditions on a chain -/

/-- The picture fields that a `jint` carries as non-negative numbers, and the strings. -/
structure Picture.Writable (p : Picture) : Prop where
  type_lt : p.type.toNat < 2147483648
  mimeType_notBlank : isNotBlank (decoder.decode (cString p.mimeType))
  mimeType_noNul : nul ∉ decoder.decode (cString p.mimeType)
  description_noNul : nul ∉ decoder.decode (cString p.description)
  width_lt : p.width.toNat < 2147483648
  height_lt : p.height.toNat < 2147483648
  depth_lt : p.depth.toNat < 2147483648
  colors_lt : p.colors.toNat < 2147483648
  length_le : 32 + utf8ByteCount (decoder.decode (cString p.mimeType)) +
    utf8ByteCount (decoder.decode (cString p.description)) + p.data.length ≤ maxBlockLength

/-- The offsets that a `jlong` carries as non-negative numbers, and the fixed fields. -/
structure CueSheet.Writable (sheet : CueSheet) : Prop where
  mediaCatalogNumber : isFixedAsciiField
    (decoder.decode (cString sheet.mediaCatalogNumber.toList)) 128
  leadIn_lt : sheet.leadIn.toNat < 9223372036854775808
  tracks : ∀ track ∈ sheet.tracks, track.offset.toNat < 9223372036854775808 ∧
    isFixedAsciiField (decoder.decode (cString track.isrc.toList)) 12 ∧
    ∀ index ∈ track.indices, index.offset.toNat < 9223372036854775808

/-- The comment entries that have a key: it is not blank, there is no NUL, and they fit one block. -/
structure CommentWritable (vendor : List UInt8) (comments : List (List UInt8)) : Prop where
  vendor_noNul : nul ∉ decoder.decode vendor
  entries : ∀ entry ∈ comments.map decoder.decode, HasKey entry →
    isNotBlank (keyOf entry) ∧ nul ∉ entry
  length_le : 8 + utf8ByteCount (decoder.decode vendor) +
    (((comments.map decoder.decode).filter (HasKey ·)).map
      fun entry => 4 + utf8ByteCount entry).sum ≤ maxBlockLength

/-- What the validators ask of a block, in terms of the file. -/
def Writable : StreamMetadata → Prop
  | .seekTable points => ∀ point ∈ points,
    (point.sampleNumber = BitVec.allOnes 64 ∨ point.sampleNumber.toNat < 9223372036854775808) ∧
      point.streamOffset.toNat < 9223372036854775808
  | .vorbisComment vendor comments => CommentWritable decoder vendor comments
  | .cueSheet sheet => sheet.Writable decoder
  | .picture p => p.Writable decoder
  | _ => True

/-- What the validators ask of a chain. -/
structure Rewritable (chain : List StreamMetadata) : Prop where
  seekTables : chain.countP (·.type = 3) ≤ 1
  blocks : ∀ block ∈ chain, Writable decoder block

/-! ## Validators on blocks that were read -/

theorem sum_flattenGroups (f : Text → ℕ) (groups : List (Text × List Text)) :
    (groups.map fun group => (group.2.map fun value => f (group.1 ++ '=' :: value)).sum).sum =
      ((flattenGroups groups).map f).sum := by
  induction groups with
  | nil => rfl
  | cons group groups ih =>
    rw [List.map_cons, List.sum_cons, ih, flattenGroups_cons, List.map_append, List.sum_append,
      List.map_map]
    rfl

/-- The conditions on keys and values are conditions on the flattened entries. -/
theorem forall_groups_iff {groups : List (Text × List Text)} (h : ProperKeys groups)
    (hvalues : ∀ group ∈ groups, group.2 ≠ []) :
    (∀ group ∈ groups, isNotBlank group.1 ∧ '=' ∉ group.1 ∧ nul ∉ group.1 ∧
      ∀ value ∈ group.2, nul ∉ value) ↔
      ∀ entry ∈ flattenGroups groups, isNotBlank (keyOf entry) ∧ nul ∉ entry := by
  constructor
  · intro hgroups entry hentry
    obtain ⟨group, hgroup, value, hvalue, rfl⟩ := mem_flattenGroups.mp hentry
    obtain ⟨hblank, hsep, hkey, hall⟩ := hgroups group hgroup
    rw [keyOf_flat hsep]
    refine ⟨hblank, fun hmem => ?_⟩
    rcases List.mem_append.mp hmem with hmem | hmem
    · exact hkey hmem
    · rcases List.mem_cons.mp hmem with heq | hmem
      · exact absurd heq (by decide)
      · exact hall value hvalue hmem
  · intro hentries group hgroup
    have hsep := h.no_separator group hgroup
    have hflat : ∀ value ∈ group.2, isNotBlank group.1 ∧ nul ∉ group.1 ++ '=' :: value := by
      intro value hvalue
      have := hentries _ (mem_flattenGroups.mpr ⟨group, hgroup, value, hvalue, rfl⟩)
      rwa [keyOf_flat hsep] at this
    obtain ⟨value, hvalue⟩ := List.exists_mem_of_ne_nil _ (hvalues group hgroup)
    obtain ⟨hblank, hnul⟩ := hflat value hvalue
    exact ⟨hblank, hsep, fun hmem => hnul (List.mem_append_left _ hmem), fun other hother hmem =>
      (hflat other hother).2 (List.mem_append_right _ (List.mem_cons_of_mem _ hmem))⟩

theorem validateVorbisComments_commentMap (vendor : List UInt8) (comments : List (List UInt8)) :
    validateVorbisComments (commentMap (comments.map decoder.decode)) (some (decoder.decode vendor)) =
      .ok () ↔ CommentWritable decoder vendor comments := by
  have hperm := flattenGroups_groupEntries_perm (comments.map decoder.decode)
  have hgroups := forall_groups_iff (properKeys_groupEntries (comments.map decoder.decode))
    (ne_nil_of_mem_groupEntries _)
  have hbytes : vorbisCommentBytes (some (decoder.decode vendor))
      (commentMap (comments.map decoder.decode)) = 8 + utf8ByteCount (decoder.decode vendor) +
        (((comments.map decoder.decode).filter (HasKey ·)).map
          fun entry => 4 + utf8ByteCount entry).sum := by
    rw [← (hperm.map _).sum_nat, ← sum_flattenGroups fun entry => 4 + utf8ByteCount entry]
    rfl
  have hentries : (∀ group ∈ (commentMap (comments.map decoder.decode)).entries,
      isNotBlank group.1 ∧ '=' ∉ group.1 ∧ nul ∉ group.1 ∧ ∀ value ∈ group.2, nul ∉ value) ↔
        ∀ entry ∈ comments.map decoder.decode, HasKey entry →
          isNotBlank (keyOf entry) ∧ nul ∉ entry := by
    refine hgroups.trans ⟨fun h entry hentry hkey => ?_, fun h entry hentry => ?_⟩
    · exact h entry (hperm.mem_iff.mpr (List.mem_filter.mpr ⟨hentry, decide_eq_true hkey⟩))
    · obtain ⟨hmem, hkey⟩ := List.mem_filter.mp (hperm.mem_iff.mp hentry)
      exact h entry hmem (of_decide_eq_true hkey)
  simp only [validateVorbisComments, bind_eq_ok, require_eq_ok, forEach_eq_ok, hbytes, hentries]
  constructor
  · rintro ⟨hvendor, hkeys, hlength⟩
    exact ⟨hvendor _ rfl, hkeys, hlength⟩
  · rintro ⟨hvendor, hkeys, hlength⟩
    exact ⟨fun text htext => Option.some.inj htext ▸ hvendor, hkeys, hlength⟩

theorem validateSeekTableMetadata_points (points : List SeekPoint) :
    validateSeekTableMetadata ⟨points.map newSeekPoint⟩ = .ok () ↔
      ∀ point ∈ points,
        (point.sampleNumber = BitVec.allOnes 64 ∨
          point.sampleNumber.toNat < 9223372036854775808) ∧
        point.streamOffset.toNat < 9223372036854775808 := by
  have hsamples (point : SeekPoint) : 0 ≤ (newSeekPoint point).frameSamples ∧
      (newSeekPoint point).frameSamples ≤ 65535 := by
    have := point.frameSamples.isLt
    have hrange := ofNat_mem_range (n := point.frameSamples.toNat) (m := 65535) (by omega) (by omega)
    have heq : (newSeekPoint point).frameSamples = Int32.ofNat point.frameSamples.toNat :=
      congrArg Int32.ofBitVec (BitVec.ofNat_toNat 32 point.frameSamples).symm
    rwa [heq]
  have hoffset (point : SeekPoint) : 0 ≤ (newSeekPoint point).streamOffset ↔
      point.streamOffset.toNat < 9223372036854775808 := nonneg_ofBitVec_64 point.streamOffset
  simp only [validateSeekTableMetadata, bind_eq_ok, require_eq_ok, forEach_eq_ok,
    List.forall_mem_map, newSeekPoint_sampleNumber, hoffset, hsamples, and_true]

theorem validateCueSheetMetadata_sheet {sheet : CueSheet}
    (hfits : (StreamMetadata.cueSheet sheet).Fits) :
    validateCueSheetMetadata ⟨decoder.decode (cString sheet.mediaCatalogNumber.toList),
      .ofBitVec sheet.leadIn, sheet.isCd, sheet.tracks.map (showTrack decoder)⟩ = .ok () ↔
      sheet.Writable decoder := by
  obtain ⟨htracks, hindices⟩ := hfits.counts sheet rfl
  have hnumber {w : ℕ} (x : BitVec w) {m : ℕ} (hw : 2 ^ w ≤ m + 1) (hm : m < 2147483648) :
      0 ≤ Int32.ofNat x.toNat ∧ Int32.ofNat x.toNat ≤ Int32.ofNat m :=
    ofNat_mem_range (by have := x.isLt; omega) hm
  have hindex (index : CueSheetIndex) : 0 ≤ (showIndex index).number ∧
      (showIndex index).number ≤ 255 := hnumber index.number (by decide) (by decide)
  have htrack (track : CueSheetTrack) : 0 ≤ (showTrack decoder track).number ∧
      (showTrack decoder track).number ≤ 255 := hnumber track.number (by decide) (by decide)
  have htype (track : CueSheetTrack) : 0 ≤ (showTrack decoder track).type ∧
      (showTrack decoder track).type ≤ 1 := hnumber track.type (by decide) (by decide)
  simp only [validateCueSheetMetadata, bind_eq_ok, require_eq_ok, forEach_eq_ok,
    List.forall_mem_map, List.length_map, htracks, htrack, htype, true_and, nonneg_ofBitVec_64]
  constructor
  · rintro ⟨hcatalog, hlead, hall⟩
    refine ⟨hcatalog, hlead, fun track hmem => ?_⟩
    obtain ⟨hoffset, hisrc, -, hrest⟩ := hall track hmem
    refine ⟨(nonneg_ofBitVec_64 _).mp hoffset, hisrc, fun index hi => ?_⟩
    exact (nonneg_ofBitVec_64 _).mp (hrest _ (List.mem_map_of_mem hi)).1
  · rintro ⟨hcatalog, hlead, hall⟩
    refine ⟨hcatalog, hlead, fun track hmem => ?_⟩
    obtain ⟨hoffset, hisrc, hrest⟩ := hall track hmem
    refine ⟨(nonneg_ofBitVec_64 _).mpr hoffset, hisrc, ?_, fun index hi => ?_⟩
    · rw [showTrack, List.length_map]
      exact hindices track hmem
    · obtain ⟨native, hnative, rfl⟩ := List.mem_map.mp hi
      exact ⟨(nonneg_ofBitVec_64 _).mpr (hrest native hnative), hindex native⟩

/-- A block that was read passes the validators exactly when it is writable. -/
theorem validateMetadataBlock_iff {block : StreamMetadata} {p : FlacMetadataBlock}
    (hfits : block.Fits) (h : Shows decoder block p) :
    validateMetadataBlock p = .ok () ↔ Writable decoder block := by
  cases block <;> cases p <;> try exact h.elim
  case padding => exact iff_of_true rfl trivial
  case unknown => exact iff_of_true rfl trivial
  case application id data a =>
    have hlength : 4 + data.length ≤ maxBlockLength := hfits.length_le
    rw [Shows] at h
    rw [validateMetadataBlock, validateApplicationMetadata, require_eq_ok, h]
    exact iff_of_true hlength trivial
  case seekTable points table =>
    rw [shows_seekTable] at h
    rw [validateMetadataBlock, h]
    exact validateSeekTableMetadata_points points
  case vorbisComment vendor comments c =>
    rw [shows_vorbisComment] at h
    rw [validateMetadataBlock, h]
    exact validateVorbisComments_commentMap decoder vendor comments
  case cueSheet sheet c =>
    rw [Shows] at h
    rw [validateMetadataBlock, h]
    exact validateCueSheetMetadata_sheet decoder hfits
  case picture p q =>
    rw [Shows] at h
    simp only [validateMetadataBlock, h, validatePictureMetadata, bind_eq_ok, require_eq_ok,
      nonneg_ofBitVec_32]
    constructor
    · rintro ⟨h1, h2, h3, h4, h5, h6, h7, h8, h9⟩
      exact ⟨h1, h2, h3, h4, h5, h6, h7, h8, h9⟩
    · rintro ⟨h1, h2, h3, h4, h5, h6, h7, h8, h9⟩
      exact ⟨h1, h2, h3, h4, h5, h6, h7, h8, h9⟩

theorem countP_vorbisComment (blocks : List FlacMetadataBlock) :
    blocks.countP (· matches .vorbisComment _) = (blocks.map (·.kind)).count .vorbisComment := by
  rw [List.count_eq_countP, List.countP_map]
  exact List.countP_congr fun p _ => by cases p <;> exact Iff.rfl

theorem countP_seekTable (blocks : List FlacMetadataBlock) :
    blocks.countP (· matches .seekTable _) = (blocks.map (·.kind)).count .seekTable := by
  rw [List.count_eq_countP, List.countP_map]
  exact List.countP_congr fun p _ => by cases p <;> exact Iff.rfl

theorem length_ofKind_seekTable (chain : List StreamMetadata) :
    (ofKind .seekTable chain).length = chain.countP (·.type = 3) := by
  rw [ofKind, ← List.countP_eq_length_filter]
  rfl

/-- The blocks of a chain pass the ordered validation exactly when the chain is rewritable. -/
theorem validateOrderedMetadataBlocks_iff {chain : List StreamMetadata}
    (hfits : ∀ block ∈ chain, block.Fits) (hvorbis : chain.countP (·.type = 4) ≤ 1)
    {blocks : List FlacMetadataBlock}
    (h : List.Forall₂ (Shows decoder) (contentBlocks chain) blocks) :
    validateOrderedMetadataBlocks blocks = .ok () ↔ Rewritable decoder chain := by
  have hcomments : blocks.countP (· matches .vorbisComment _) ≤ 1 := by
    rwa [countP_vorbisComment, ← length_ofKind_eq decoder h, length_ofKind_vorbisComment]
  have htables : blocks.countP (· matches .seekTable _) = chain.countP (·.type = 3) := by
    rw [countP_seekTable, ← length_ofKind_eq decoder h, length_ofKind_seekTable]
  have hblocks := forall₂_forall_iff
    (fun block p hp => (validateMetadataBlock_iff decoder hp.1 hp.2).symm)
    (forall₂_fits decoder hfits h)
  simp only [validateOrderedMetadataBlocks, bind_eq_ok, require_eq_ok, forEach_eq_ok, ← hblocks]
  constructor
  · rintro ⟨-, hle, hall⟩
    refine ⟨htables.symm.trans_le hle, fun block hmem => ?_⟩
    by_cases htype : block.type = 0
    · cases block with
      | streamInfo info => trivial
      | unknown type data => trivial
      | _ => simp [StreamMetadata.type] at htype
    · exact hall block (List.mem_filter.mpr ⟨hmem, by simpa using htype⟩)
  · rintro ⟨hle, hall⟩
    exact ⟨hcomments, htables.trans_le hle, fun block hmem => hall block (List.mem_of_mem_filter hmem)⟩

/-! ## Whole files -/

/-- Metadata that was read, written back by an edit without changes or by `toEncodingMetadata`, passes
the validation exactly when the chain is rewritable. -/
theorem validateFlacEncodingMetadata_read_iff {chain : List StreamMetadata}
    {payload : NativeMetadataPayload} (hfits : ∀ block ∈ chain, block.Fits)
    (hread : readMetadata decoder chain = .ok payload) :
    (validateFlacEncodingMetadata (sessionMetadata payload.toPublicMetadata.blocks) = .ok () ↔
      Rewritable decoder chain) ∧
    (validateFlacEncodingMetadata payload.toPublicMetadata.toEncodingMetadata = .ok () ↔
      Rewritable decoder chain) := by
  obtain ⟨blocks, hshows, hreads⟩ := readsAs_of_readMetadata decoder hfits hread
  have hiff := validateOrderedMetadataBlocks_iff decoder hfits (of_readMetadata decoder hread).2 hshows
  have hgrouped := hreads.grouped
  have hblocks := hreads.blocks_eq
  generalize payload.toPublicMetadata = metadata at hgrouped hblocks
  by_cases hnil : blocks = []
  · subst hnil
    have hok : Rewritable decoder chain := hiff.mp rfl
    obtain ⟨hcomment, hpictures, happlications, htables, hsheets, -, -⟩ := hgrouped
    rw [hblocks, List.filterMap_nil] at hcomment hpictures happlications htables hsheets
    refine ⟨iff_of_true ?_ hok, iff_of_true ?_ hok⟩
    · rw [hblocks]
      decide
    · simp only [validateFlacEncodingMetadata, FlacMetadata.toEncodingMetadata, hblocks, hcomment,
        hpictures, happlications, htables, hsheets]
      decide
  · rw [← hiff]
    constructor
    · rw [validateFlacEncodingMetadata, sessionMetadata, hblocks, if_pos hnil]
    · rw [validateFlacEncodingMetadata, FlacMetadata.toEncodingMetadata, hblocks, if_pos hnil]

/-- A seek table with one point and a placeholder, and a padding. -/
def seekTableChain : List StreamMetadata :=
  [.streamInfo emptyStreamInfo, .seekTable [⟨0, 0, 4096⟩, ⟨BitVec.allOnes 64, 0, 0⟩], .padding 8]

theorem validateFlacEncodingMetadata_read_seekTable :
    ∃ payload, readMetadata replacingDecoder seekTableChain = .ok payload ∧
      validateFlacEncodingMetadata (sessionMetadata payload.toPublicMetadata.blocks) = .ok () ∧
      validateFlacEncodingMetadata payload.toPublicMetadata.toEncodingMetadata = .ok () := by
  have hmem : ∀ block ∈ seekTableChain, block.Fits ∧ Writable replacingDecoder block := by
    intro block hblock
    simp only [seekTableChain, List.mem_cons, List.not_mem_nil, or_false] at hblock
    rcases hblock with rfl | rfl | rfl
    · exact ⟨⟨by decide, nofun⟩, trivial⟩
    · exact ⟨⟨by decide, nofun⟩, by simp only [Writable]; decide⟩
    · exact ⟨⟨by decide, nofun⟩, trivial⟩
  have hrewritable : Rewritable replacingDecoder seekTableChain :=
    ⟨by decide, fun block hblock => (hmem block hblock).2⟩
  obtain ⟨blocks, hshows⟩ := exists_forall₂_shows replacingDecoder fun b hb => (hmem b hb).1
  obtain ⟨payload, hreads⟩ := exists_readsAs replacingDecoder ⟨emptyStreamInfo, List.mem_cons_self⟩
    (by decide) (fun b hb => (hmem b hb).1) hshows
  obtain ⟨hsession, hencoding⟩ := validateFlacEncodingMetadata_read_iff replacingDecoder
    (fun b hb => (hmem b hb).1) hreads.read
  exact ⟨payload, hreads.read, hsession.mpr hrewritable, hencoding.mpr hrewritable⟩

/-- A picture that is 2 147 483 648 pixels wide, between two seek tables. -/
def unwritableChain : List StreamMetadata :=
  [.streamInfo emptyStreamInfo, .seekTable [],
    .picture ⟨3, utf8 "image/png".toList, [], 2147483648, 1, 24, 0, []⟩, .seekTable []]

/-- `unwritableChain` is read and cannot be written back. -/
theorem read_not_writable : (∀ block ∈ unwritableChain, block.Fits) ∧
    ∃ payload, readMetadata replacingDecoder unwritableChain = .ok payload ∧
      validateFlacEncodingMetadata (sessionMetadata payload.toPublicMetadata.blocks) ≠ .ok () ∧
      validateFlacEncodingMetadata payload.toPublicMetadata.toEncodingMetadata ≠ .ok () := by
  constructor
  · intro block hblock
    simp only [unwritableChain, List.mem_cons, List.not_mem_nil, or_false] at hblock
    rcases hblock with rfl | rfl | rfl | rfl <;> exact ⟨by decide, nofun⟩
  · refine ⟨_, rfl, ?_, ?_⟩
    · decide
    · decide

end JFlac.Metadata
