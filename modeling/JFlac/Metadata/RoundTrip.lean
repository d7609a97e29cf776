import JFlac.Metadata.Order
import JFlac.Metadata.Rewriting
import JFlac.Metadata.Validation
import JFlac.Metadata.Writing

/-!
# Metadata that is written and read again

Every field that the validators let through fits its native width, so the native block that a builder
makes shows the public block it was made from. A chain of such blocks is read as the blocks that were
written.
-/

namespace JFlac.Metadata

open Lib

variable (decoder : Utf8Decoder) (lib : LibFlacMetadata)

/-! ## Fields -/

theorem nativeString_eq {text : Text} (h : nul ∉ text) : nativeString text = utf8 text :=
  cString_utf8 h

theorem length_le_utf16Length (text : Text) : text.length ≤ utf16Length text := by
  induction text with
  | nil => rfl
  | cons c text ih =>
    have hunits : 1 ≤ if 0xffff < c.toNat then 2 else 1 := by split <;> omega
    have hcons : utf16Length (c :: text) =
        (if 0xffff < c.toNat then 2 else 1) + utf16Length text := List.sum_cons
    rw [hcons, List.length_cons]
    omega

/-- A fixed ASCII field has no NUL and fits. -/
theorem of_isFixedAsciiField {text : Text} {n : ℕ} (h : isFixedAsciiField text n) :
    nul ∉ text ∧ (utf8 text).length ≤ n := by
  rw [isFixedAsciiField] at h
  split at h
  · cases h
  · rename_i hlength
    have hascii : ∀ c ∈ text, 0x20 ≤ c.toNat ∧ c.toNat ≤ 0x7e := fun c hc =>
      of_decide_eq_true (List.all_eq_true.mp h c hc)
    refine ⟨fun hnul => ?_, ?_⟩
    · exact absurd (hascii nul hnul).1 (by decide)
    · rw [utf8_ascii fun c hc => by have := hascii c hc; omega, List.length_map]
      exact (length_le_utf16Length text).trans (Nat.le_of_not_lt hlength)

/-- The padding of a fixed field ends its text. -/
theorem cString_append_zeros {text : Text} (h : nul ∉ text) (n : ℕ) :
    cString (utf8 text ++ List.replicate n 0) = utf8 text := by
  have hne : ∀ b ∈ utf8 text, decide (b ≠ 0) = true := by
    intro b hb
    rw [← cString_utf8 h, cString] at hb
    have := List.mem_takeWhile_imp hb
    exact this
  rw [cString, List.takeWhile_append_of_pos hne, List.takeWhile_replicate]
  simp

theorem copyFixedAsciiField_eq {text : Text} {size : ℕ} (h : isFixedAsciiField text size) :
    ∃ field : Vector UInt8 size, copyFixedAsciiField size (nativeString text) = some field ∧
      decoder.decode (cString field.toList) = text := by
  obtain ⟨hnul, hlength⟩ := of_isFixedAsciiField h
  rw [nativeString_eq hnul, copyFixedAsciiField, dif_pos (by omega)]
  refine ⟨_, rfl, ?_⟩
  show decoder.decode (cString (utf8 text ++ List.replicate _ 0)) = text
  rw [cString_append_zeros hnul, decoder.decode_utf8]

/-- A number within the range of a narrow field survives it. -/
theorem ofNat_setWidth {w m : ℕ} {x : Int32} (hx : 0 ≤ x ∧ x ≤ Int32.ofNat m) (hm : m < 2 ^ w)
    (hm' : m < 2147483648) : Int32.ofNat (x.toBitVec.setWidth w).toNat = x := by
  obtain ⟨hlow, hhigh⟩ := hx
  rw [Int32.le_iff_toInt_le] at hlow hhigh
  rw [Int32.toInt_ofNat_of_lt (by omega)] at hhigh
  have hcond : x.toInt = x.toBitVec.toInt := rfl
  have hbound := x.toBitVec.isLt
  rw [hcond, BitVec.toInt_eq_toNat_cond] at hlow hhigh
  have hle : x.toBitVec.toNat ≤ m := by
    have hlow' : (0 : ℤ) ≤ _ := hlow
    split at hhigh <;> omega
  rw [BitVec.toNat_setWidth, Nat.mod_eq_of_lt (by omega)]
  show Int32.ofBitVec (BitVec.ofNat 32 x.toBitVec.toNat) = x
  rw [BitVec.ofNat_toNat, BitVec.setWidth_eq]
  rfl

/-- Seek points survive, placeholders included. -/
theorem newSeekPoint_nativeSeekPoint {point : FlacSeekPoint}
    (h : 0 ≤ point.frameSamples ∧ point.frameSamples ≤ 65535) :
    newSeekPoint (nativeSeekPoint point) = point := by
  obtain ⟨sampleNumber, streamOffset, frameSamples⟩ := point
  have hsamples : Int32.ofBitVec ((frameSamples.toBitVec.setWidth 16).setWidth 32) =
      frameSamples := by
    rw [← BitVec.ofNat_toNat 32]
    exact ofNat_setWidth (m := 65535) h (by decide) (by decide)
  have hnumber : (if (if sampleNumber = -1 then BitVec.allOnes 64 else sampleNumber.toBitVec) =
      BitVec.allOnes 64 then -1 else
      Int64.ofBitVec (if sampleNumber = -1 then BitVec.allOnes 64 else sampleNumber.toBitVec)) =
        sampleNumber := by
    by_cases hone : sampleNumber = -1
    · rw [if_pos hone, if_pos rfl, hone]
    · have hne : sampleNumber.toBitVec ≠ BitVec.allOnes 64 := fun he =>
        hone (Int64.toBitVec_inj.mp (he.trans (by decide)))
      rw [if_neg hone, if_neg hne]
      rfl
  rw [newSeekPoint, nativeSeekPoint]
  simp only [hsamples, hnumber]
  rfl

theorem showIndex_nativeCueSheetIndex {index : FlacCueSheetIndex}
    (h : 0 ≤ index.number ∧ index.number ≤ 255) : showIndex (nativeCueSheetIndex index) = index := by
  have hnumber := ofNat_setWidth (w := 8) (m := 255) h (by decide) (by decide)
  rw [showIndex, nativeCueSheetIndex]
  simp only [hnumber]
  rfl

/-! ## Comments -/

/-- What `validateVorbisComments` guarantees of a map. -/
theorem properKeys_of_valid {comments : CommentMap} {vendor : Option Text}
    (h : validateVorbisComments comments vendor = .ok ()) :
    ProperKeys comments.entries ∧ (∀ group ∈ comments.entries, group.1 ≠ []) ∧
      (∀ entry ∈ flattenGroups comments.entries, nul ∉ entry) ∧
      vorbisCommentBytes vendor comments ≤ maxBlockLength := by
  simp only [validateVorbisComments, bind_eq_ok, require_eq_ok, forEach_eq_ok] at h
  obtain ⟨-, hgroups, hlength⟩ := h
  refine ⟨⟨comments.nodup, fun group hgroup => (hgroups group hgroup).2.1⟩, fun group hgroup =>
    ne_nil_of_isNotBlank (hgroups group hgroup).1, fun entry hentry hmem => ?_, hlength⟩
  obtain ⟨group, hgroup, value, hvalue, rfl⟩ := mem_flattenGroups.mp hentry
  obtain ⟨-, -, hkey, hvalues⟩ := hgroups group hgroup
  rcases List.mem_append.mp hmem with hmem | hmem
  · exact hkey hmem
  · rcases List.mem_cons.mp hmem with heq | hmem
    · exact absurd heq (by decide)
    · exact hvalues value hvalue hmem

/-- The map that is read from the entries of a map. -/
theorem commentMap_flattenGroups {comments : CommentMap} (hproper : ProperKeys comments.entries)
    (hkeys : ∀ group ∈ comments.entries, group.1 ≠ [])
    (hvalues : ∀ group ∈ comments.entries, group.2 ≠ []) :
    commentMap (flattenGroups comments.entries) = comments :=
  CommentMap.eq_of_entries (groupEntries_flattenGroups hproper fun group hgroup =>
    ⟨hkeys group hgroup, hvalues group hgroup⟩)

theorem normalisedEntry_eq {entry : Text} (hsep : '=' ∈ entry) (hnul : nul ∉ entry)
    (hlength : (utf8 entry).length ≤ uint32Max) :
    normalisedEntry (nativeString entry) = .ok (utf8 entry) := by
  have hmem : asciiByte '=' ∈ utf8 entry := (asciiByte_mem_utf8 (by decide)).mpr hsep
  rw [nativeString_eq hnul, normalisedEntry, if_neg (not_not.mpr hmem),
    if_neg (Nat.not_lt_of_le hlength)]

theorem appendComments_eq {entries : List Text}
    (h : ∀ entry ∈ entries, '=' ∈ entry ∧ nul ∉ entry ∧ (utf8 entry).length ≤ uint32Max ∧
      lib.appendComment (utf8 entry)) : appendComments lib entries = .ok (entries.map utf8) := by
  induction entries with
  | nil => rfl
  | cons entry entries ih =>
    obtain ⟨⟨hsep, hnul, hlength, hlegal⟩, hrest⟩ := List.forall_mem_cons.mp h
    rw [appendComments, normalisedEntry_eq hsep hnul hlength, ih hrest]
    simp only [bind, Except.bind, hlegal, if_true, List.map_cons]

/-- The flattened entries of a valid map. -/
theorem entries_of_valid {comments : CommentMap} {vendor : Option Text}
    (hvalid : validateVorbisComments comments vendor = .ok ()) :
    ∀ entry ∈ flattenGroups comments.entries,
      '=' ∈ entry ∧ nul ∉ entry ∧ (utf8 entry).length ≤ uint32Max := by
  obtain ⟨-, -, hnul, hlength⟩ := properKeys_of_valid hvalid
  refine fun entry hentry => ⟨?_, hnul entry hentry, ?_⟩
  · obtain ⟨group, -, value, -, rfl⟩ := mem_flattenGroups.mp hentry
    simp
  · have hsum := List.le_sum_of_mem
      (List.mem_map_of_mem (f := fun entry => 4 + utf8ByteCount entry) hentry)
    rw [← sum_flattenGroups] at hsum
    rw [vorbisCommentBytes, maxBlockLength] at hlength
    rw [utf8ByteCount] at hsum
    rw [uint32Max]
    omega

/-- The entries of a valid map are appended as they are. -/
theorem appendComments_flattenGroups {comments : CommentMap} {vendor : Option Text}
    (hvalid : validateVorbisComments comments vendor = .ok ())
    (hlegal : ∀ entry ∈ flattenGroups comments.entries, lib.appendComment (utf8 entry)) :
    appendComments lib (flattenGroups comments.entries) =
      .ok ((flattenGroups comments.entries).map utf8) := by
  refine appendComments_eq lib fun entry hentry => ?_
  obtain ⟨hsep, hnul, hlength⟩ := entries_of_valid hvalid entry hentry
  exact ⟨hsep, hnul, hlength, hlegal entry hentry⟩

/-! ## Cue sheets -/

/-- The checks of one track. -/
structure FlacCueSheetTrack.Valid (track : FlacCueSheetTrack) : Prop where
  number : 0 ≤ track.number ∧ track.number ≤ 255
  isrc : isFixedAsciiField track.isrc 12
  type : 0 ≤ track.type ∧ track.type ≤ 1
  indices_length : track.indices.length ≤ 255
  indices : ∀ index ∈ track.indices, 0 ≤ index.number ∧ index.number ≤ 255

theorem of_validateCueSheetMetadata {sheet : FlacCueSheet}
    (h : validateCueSheetMetadata sheet = .ok ()) :
    isFixedAsciiField sheet.mediaCatalogNumber 128 ∧ sheet.tracks.length ≤ 255 ∧
      ∀ track ∈ sheet.tracks, track.Valid := by
  simp only [validateCueSheetMetadata, bind_eq_ok, require_eq_ok, forEach_eq_ok] at h
  obtain ⟨hcatalog, -, hlength, htracks⟩ := h
  refine ⟨hcatalog, hlength, fun track htrack => ?_⟩
  obtain ⟨-, hnumber, hisrc, htype, hindices, hall⟩ := htracks track htrack
  exact ⟨hnumber, hisrc, htype, hindices, fun index hindex => (hall index hindex).2⟩

theorem fillCueSheetTrack_eq {track : FlacCueSheetTrack} (h : track.Valid) :
    ∃ native, fillCueSheetTrack track = .ok native ∧ showTrack decoder native = track ∧
      native.indices.length = track.indices.length := by
  obtain ⟨isrc, hcopy, hisrc⟩ := copyFixedAsciiField_eq decoder h.isrc
  have hnumber := ofNat_setWidth (w := 8) (m := 255) h.number (by decide) (by decide)
  have htype := ofNat_setWidth (w := 1) (m := 1) h.type (by decide) (by decide)
  have hemphasis : decide ((if track.preEmphasis then 1 else 0 : BitVec 1) ≠ 0) =
      track.preEmphasis := by
    cases track.preEmphasis <;> rfl
  have hindices : (track.indices.map nativeCueSheetIndex).map showIndex = track.indices :=
    map_map_eq_self fun index hindex => showIndex_nativeCueSheetIndex (h.indices index hindex)
  rw [fillCueSheetTrack, hcopy]
  refine ⟨_, rfl, ?_, List.length_map _⟩
  simp only [showTrack, hisrc, hnumber, htype, hindices, hemphasis]
  rfl

theorem fillCueSheetTracks_eq {tracks : List FlacCueSheetTrack} (h : ∀ track ∈ tracks, track.Valid) :
    ∃ natives, fillCueSheetTracks tracks = .ok natives ∧
      List.Forall₂ (fun native track => showTrack decoder native = track ∧
        native.indices.length = track.indices.length) natives tracks := by
  induction tracks with
  | nil => exact ⟨[], rfl, List.Forall₂.nil⟩
  | cons track tracks ih =>
    obtain ⟨htrack, hrest⟩ := List.forall_mem_cons.mp h
    obtain ⟨native, hnative, hshows⟩ := fillCueSheetTrack_eq decoder htrack
    obtain ⟨natives, hnatives, hall⟩ := ih hrest
    refine ⟨native :: natives, ?_, hall.cons hshows⟩
    rw [fillCueSheetTracks, hnative, hnatives]
    rfl

/-- The native sheet of a valid public one. -/
theorem fillCueSheet_eq {sheet : FlacCueSheet} (h : validateCueSheetMetadata sheet = .ok ()) :
    ∃ native, fillCueSheet sheet = .ok native ∧
      Shows decoder (.cueSheet native) (.cueSheet sheet) ∧
      (StreamMetadata.cueSheet native).length =
        396 + (sheet.tracks.map fun track => 36 + 12 * track.indices.length).sum ∧
      native.tracks.length ≤ 255 ∧ ∀ track ∈ native.tracks, track.indices.length ≤ 255 := by
  obtain ⟨hcatalog, hlength, htracks⟩ := of_validateCueSheetMetadata h
  obtain ⟨catalog, hcopy, hdecode⟩ := copyFixedAsciiField_eq decoder hcatalog
  obtain ⟨natives, hnatives, hall⟩ := fillCueSheetTracks_eq decoder htracks
  have hshow : natives.map (showTrack decoder) = sheet.tracks := by
    have := List.forall₂_map_left_iff.mpr (hall.imp fun _ _ hs => hs.1)
    rwa [List.forall₂_eq_eq_eq] at this
  have hindices : natives.map (fun track => 36 + 12 * track.indices.length) =
      sheet.tracks.map fun track => 36 + 12 * track.indices.length := by
    rw [← hshow, List.map_map]
    exact List.map_congr_left fun track _ => by simp [showTrack]
  refine ⟨⟨catalog, sheet.leadIn.toBitVec, sheet.isCd, natives⟩, ?_, ?_, ?_, ?_, ?_⟩
  · rw [fillCueSheet, hcopy]
    simp only [hnatives, bind, Except.bind]
  · rw [Shows, hdecode, hshow]
    rfl
  · rw [StreamMetadata.length, hindices]
  · rwa [hall.length_eq]
  · have hiff := forall₂_forall_iff (P := fun track : CueSheetTrack => track.indices.length ≤ 255)
      (Q := fun track : FlacCueSheetTrack => track.indices.length ≤ 255)
      (fun _ _ hs => by rw [hs.2]) hall
    exact hiff.mpr fun track htrack => (htracks track htrack).indices_length

/-! ## Blocks -/

/-- The bytes of the body that is built for a block. -/
def FlacMetadataBlock.bodyLength : FlacMetadataBlock → ℕ
  | .padding p => p.length.toNat
  | .application a => 4 + a.data.length
  | .seekTable t => 18 * t.points.length
  | .vorbisComment c => vorbisCommentBytes (some c.vendor) c.comments
  | .cueSheet c => 396 + (c.tracks.map fun track => 36 + 12 * track.indices.length).sum
  | .picture p =>
    32 + utf8ByteCount p.mimeType + utf8ByteCount p.description + p.data.length
  | .unknown u => u.data.length

/-- Every key of a comment has a value. -/
def HasValues : FlacMetadataBlock → Prop
  | .vorbisComment c => ∀ group ∈ c.comments.entries, group.2 ≠ []
  | _ => True

/-- libFLAC's legality checks accept what is built for a block. -/
def Legal : FlacMetadataBlock → Prop
  | .vorbisComment c => lib.setVendorString (utf8 c.vendor) ∧
    ∀ entry ∈ flattenGroups c.comments.entries, lib.appendComment (utf8 entry)
  | .seekTable t => lib.seekTableIsLegal (t.points.map nativeSeekPoint)
  | .cueSheet c => ∀ native, fillCueSheet c = .ok native → lib.cueSheetViolation native c.isCd = none
  | _ => True

/-- A native block that a builder made. -/
structure Built (native : StreamMetadata) (p : FlacMetadataBlock) : Prop where
  shows_ : Shows decoder native p
  length_eq : native.length = p.bodyLength
  counts : ∀ sheet, native = .cueSheet sheet →
    sheet.tracks.length ≤ 255 ∧ ∀ track ∈ sheet.tracks, track.indices.length ≤ 255

theorem length_vorbisComment (vendor : Text) (comments : CommentMap) :
    (StreamMetadata.vorbisComment (utf8 vendor) ((flattenGroups comments.entries).map utf8)).length =
      vorbisCommentBytes (some vendor) comments := by
  rw [StreamMetadata.length, List.map_map, vorbisCommentBytes,
    sum_flattenGroups fun entry => 4 + utf8ByteCount entry]
  rfl

/-- The native comment block shows the comment. -/
theorem built_vorbisComment {vendor : Text} {comments : CommentMap}
    (hproper : ProperKeys comments.entries) (hkeys : ∀ group ∈ comments.entries, group.1 ≠ [])
    (hvalues : ∀ group ∈ comments.entries, group.2 ≠ []) :
    Built decoder (.vorbisComment (utf8 vendor) ((flattenGroups comments.entries).map utf8))
      (.vorbisComment ⟨vendor, comments⟩) := by
  have hdecode : ((flattenGroups comments.entries).map utf8).map decoder.decode =
      flattenGroups comments.entries := map_map_eq_self fun entry _ => decoder.decode_utf8 entry
  refine ⟨?_, length_vorbisComment vendor comments, nofun⟩
  rw [shows_vorbisComment, hdecode, commentMap_flattenGroups hproper hkeys hvalues, decoder.decode_utf8]

/-- A valid and legal block is built. -/
theorem buildBlock_eq {p : FlacMetadataBlock} (hvalid : validateMetadataBlock p = .ok ())
    (hvalues : HasValues p) (hlegal : Legal lib p) :
    ∃ native, buildBlock lib p = .ok (some native) ∧ Built decoder native p := by
  cases p with
  | vorbisComment c =>
    rw [validateMetadataBlock] at hvalid
    obtain ⟨hproper, hkeys, -, -⟩ := properKeys_of_valid hvalid
    have hnul : nul ∉ c.vendor := by
      simp only [validateVorbisComments, bind_eq_ok, require_eq_ok] at hvalid
      exact hvalid.1 c.vendor rfl
    refine ⟨_, ?_, built_vorbisComment decoder hproper hkeys hvalues⟩
    rw [buildBlock, buildVorbisCommentBlock, if_neg (by simp), nativeString_eq hnul]
    simp only [hlegal.1, if_true, appendComments_flattenGroups lib hvalid hlegal.2, bind, Except.bind]
  | picture q =>
    simp only [validateMetadataBlock, validatePictureMetadata, bind_eq_ok, require_eq_ok] at hvalid
    obtain ⟨-, -, hmime, hdescription, -⟩ := hvalid
    refine ⟨_, rfl, ?_, ?_, fun _ hsheet => by cases hsheet⟩
    · rw [buildPictureBlock, nativeString_eq hmime, nativeString_eq hdescription, Shows,
        cString_utf8 hmime, cString_utf8 hdescription, decoder.decode_utf8, decoder.decode_utf8]
      rfl
    · rw [buildPictureBlock, nativeString_eq hmime, nativeString_eq hdescription]
      rfl
  | application a => exact ⟨_, rfl, rfl, rfl, fun _ hsheet => by cases hsheet⟩
  | seekTable t =>
    rw [validateMetadataBlock, validateSeekTableMetadata] at hvalid
    simp only [bind_eq_ok, require_eq_ok, forEach_eq_ok] at hvalid
    have hlegal : lib.seekTableIsLegal (t.points.map nativeSeekPoint) = true := hlegal
    refine ⟨.seekTable (t.points.map nativeSeekPoint), ?_, ?_, ?_, fun _ hsheet => by cases hsheet⟩
    · rw [buildBlock, buildSeekTableBlock, if_pos hlegal]
      rfl
    · rw [shows_seekTable, map_map_eq_self fun point hpoint =>
        newSeekPoint_nativeSeekPoint (hvalid point hpoint).2.2]
    · rw [StreamMetadata.length, List.length_map]
      rfl
  | cueSheet c =>
    obtain ⟨native, hfill, hshows, hlength, hcounts⟩ := fillCueSheet_eq decoder hvalid
    refine ⟨_, ?_, hshows, hlength, fun sheet hsheet => ?_⟩
    · rw [buildBlock, buildCueSheetBlock, hfill]
      simp only [bind, Except.bind, hlegal native hfill]
      rfl
    · cases hsheet
      exact hcounts
  | padding q =>
    have hrange : ¬ (q.length < 0 ∨ (maxBlockLength : ℤ) < q.length) := by
      have := q.nonneg
      have := q.length_le
      omega
    refine ⟨.padding q.length.toNat, ?_, (Int.toNat_of_nonneg q.nonneg).symm, rfl,
      fun _ hsheet => by cases hsheet⟩
    rw [buildBlock, buildPaddingBlock, if_neg hrange]
    rfl
  | unknown u =>
    have hmin := u.min_le
    have hmax := u.le_max
    refine ⟨.unknown ⟨u.type.toNat, by omega, by omega⟩ u.data, ?_, ?_, rfl,
      fun _ hsheet => by cases hsheet⟩
    · rw [buildBlock, buildUnknownMetadataBlock, dif_neg (by omega),
        if_neg (Nat.not_lt_of_le u.length_le)]
      rfl
    · exact ⟨(Int.toNat_of_nonneg (by omega)).symm, rfl⟩

/-- What building a list of blocks comes to: native blocks for all of them, or an error because one
body does not fit. -/
inductive Builds (build : Build (List (Option StreamMetadata))) (blocks : List FlacMetadataBlock) :
    Prop where
  | built (natives : List StreamMetadata) (hbuild : build = .ok (natives.map some))
    (hall : List.Forall₂ (Built decoder) natives blocks)
    (hfits : ∀ p ∈ blocks, p.bodyLength ≤ maxBlockLength)
  | failed (e : Option Throwable) (hbuild : build = .error e)
    (hlong : ¬ ∀ p ∈ blocks, p.bodyLength ≤ maxBlockLength)

/-- One list after another. -/
def appendBuilds (first second : Build (List (Option StreamMetadata))) :
    Build (List (Option StreamMetadata)) := do
  let xs ← first
  let ys ← second
  .ok (xs ++ ys)

theorem Builds.append {first second : Build (List (Option StreamMetadata))}
    {blocks blocks' : List FlacMetadataBlock} (h : Builds decoder first blocks)
    (h' : Builds decoder second blocks') :
    Builds decoder (appendBuilds first second) (blocks ++ blocks') := by
  cases h with
  | failed e hbuild hlong =>
    refine .failed e (by rw [hbuild]; rfl) fun hfits => hlong fun p hp => ?_
    exact hfits p (List.mem_append_left _ hp)
  | built natives hbuild hall hfits =>
    cases h' with
    | failed e hbuild' hlong =>
      refine .failed e (by rw [hbuild, hbuild']; rfl) fun hfits => hlong fun p hp => ?_
      exact hfits p (List.mem_append_right _ hp)
    | built natives' hbuild' hall' hfits' =>
      refine .built (natives ++ natives') ?_ (List.rel_append hall hall') fun p hp => ?_
      · rw [hbuild, hbuild', List.map_append]
        rfl
      · exact (List.mem_append.mp hp).elim (hfits p) (hfits' p)

/-- A built block passes the length check exactly when its body fits. -/
theorem builds_singleton {native : StreamMetadata} {p : FlacMetadataBlock}
    (hbuilt : Built decoder native p) :
    Builds decoder (ensureMetadataBlockLengthFits (some native) >>= fun block => .ok [block])
      [p] := by
  rw [ensureMetadataBlockLengthFits, hbuilt.length_eq]
  by_cases hlength : p.bodyLength ≤ maxBlockLength
  · rw [if_neg (Nat.not_lt_of_le hlength)]
    exact .built [native] rfl (List.Forall₂.nil.cons hbuilt) (by simpa using hlength)
  · rw [if_pos (Nat.lt_of_not_le hlength)]
    exact .failed _ rfl (by simpa using hlength)

/-- The ordered mode. -/
theorem builds_ordered {blocks : List FlacMetadataBlock}
    (hvalid : ∀ p ∈ blocks, validateMetadataBlock p = .ok ()) (hvalues : ∀ p ∈ blocks, HasValues p)
    (hlegal : ∀ p ∈ blocks, Legal lib p) :
    Builds decoder (buildOrderedMetadataBlocks lib blocks) blocks := by
  induction blocks with
  | nil => exact .built [] rfl List.Forall₂.nil (by simp)
  | cons p blocks ih =>
    rw [List.forall_mem_cons] at hvalid hvalues hlegal
    obtain ⟨native, hbuild, hbuilt⟩ := buildBlock_eq decoder lib hvalid.1 hvalues.1 hlegal.1
    have happend := (builds_singleton decoder hbuilt).append decoder
      (ih hvalid.2 hvalues.2 hlegal.2)
    have heq : buildOrderedMetadataBlocks lib (p :: blocks) =
        appendBuilds (ensureMetadataBlockLengthFits (some native) >>= fun block => .ok [block])
          (buildOrderedMetadataBlocks lib blocks) := by
      rw [buildOrderedMetadataBlocks, buildOrderedMetadataBlock, hbuild, appendBuilds]
      show (ensureMetadataBlockLengthFits (some native) >>= _) = _
      cases ensureMetadataBlockLengthFits (some native) <;> rfl
    rwa [heq]

/-! ## Grouped mode -/

/-- The block of grouped comments; libFLAC puts its own vendor string. -/
def groupedComment (comments : CommentMap) : List FlacMetadataBlock :=
  if comments.entries = [] then [] else [.vorbisComment ⟨lib.vendor, comments⟩]

/-- The blocks that metadata stands for: the ordered list, or the grouped fields in the order in which
they are built. -/
def writtenBlocks (metadata : FlacEncodingMetadata) : List FlacMetadataBlock :=
  if metadata.blocks ≠ [] then metadata.blocks
  else groupedComment lib metadata.comments ++ metadata.pictures.map .picture ++
    metadata.applicationBlocks.map .application ++ metadata.seekTables.map .seekTable ++
    metadata.cueSheets.map .cueSheet ++ metadata.paddingBlocks.map .padding ++
    metadata.unknownBlocks.map .unknown

theorem builds_groupedComments {comments : CommentMap}
    (hvalid : validateVorbisComments comments none = .ok ())
    (hvalues : ∀ group ∈ comments.entries, group.2 ≠ [])
    (hlegal : ∀ entry ∈ flattenGroups comments.entries, lib.appendComment (utf8 entry)) :
    Builds decoder (buildGroupedComments lib (flattenGroups comments.entries))
      (groupedComment lib comments) := by
  obtain ⟨hproper, hkeys, -, -⟩ := properKeys_of_valid hvalid
  rw [groupedComment]
  by_cases hnil : comments.entries = []
  · rw [if_pos hnil, hnil]
    exact .built [] rfl List.Forall₂.nil (by simp)
  · have hflat : flattenGroups comments.entries ≠ [] := by
      obtain ⟨group, hgroup⟩ := List.exists_mem_of_ne_nil _ hnil
      obtain ⟨value, hvalue⟩ := List.exists_mem_of_ne_nil _ (hvalues group hgroup)
      exact List.ne_nil_of_mem (mem_flattenGroups.mpr ⟨group, hgroup, value, hvalue, rfl⟩)
    have hbuild : buildGroupedComments lib (flattenGroups comments.entries) =
        (ensureMetadataBlockLengthFits (some (.vorbisComment (utf8 lib.vendor)
          ((flattenGroups comments.entries).map utf8))) >>= fun block => .ok [block]) := by
      rw [buildGroupedComments, if_neg hflat, buildVorbisCommentBlock,
        if_neg fun h => hflat h.2.2, appendComments_flattenGroups lib hvalid hlegal]
      rfl
    rw [if_neg hnil, hbuild]
    exact builds_singleton decoder (built_vorbisComment decoder hproper hkeys hvalues)

/-- The grouped mode appends the lists of the types. -/
theorem buildMetadataBlocks_eq {metadata : FlacEncodingMetadata}
    (h : totalBlocks metadata ≤ uint32Max) :
    buildMetadataBlocks lib metadata =
      appendBuilds (appendBuilds (appendBuilds (appendBuilds (appendBuilds (appendBuilds
        (buildGroupedComments lib (flattenGroups metadata.comments.entries))
        (buildOrderedMetadataBlocks lib (metadata.pictures.map .picture)))
        (buildOrderedMetadataBlocks lib (metadata.applicationBlocks.map .application)))
        (buildOrderedMetadataBlocks lib (metadata.seekTables.map .seekTable)))
        (buildOrderedMetadataBlocks lib (metadata.cueSheets.map .cueSheet)))
        (buildOrderedMetadataBlocks lib (metadata.paddingBlocks.map .padding)))
        (buildOrderedMetadataBlocks lib (metadata.unknownBlocks.map .unknown)) := by
  rw [buildMetadataBlocks, if_neg (Nat.not_lt_of_le h)]
  cases buildGroupedComments lib (flattenGroups metadata.comments.entries)
  case error e => rfl
  cases buildOrderedMetadataBlocks lib (metadata.pictures.map .picture)
  case error e => rfl
  cases buildOrderedMetadataBlocks lib (metadata.applicationBlocks.map .application)
  case error e => rfl
  cases buildOrderedMetadataBlocks lib (metadata.seekTables.map .seekTable)
  case error e => rfl
  cases buildOrderedMetadataBlocks lib (metadata.cueSheets.map .cueSheet)
  case error e => rfl
  cases buildOrderedMetadataBlocks lib (metadata.paddingBlocks.map .padding)
  case error e => rfl
  cases buildOrderedMetadataBlocks lib (metadata.unknownBlocks.map .unknown) <;> rfl

/-- libFLAC's legality checks accept what is built for metadata. -/
structure LegalMetadata (metadata : FlacEncodingMetadata) : Prop where
  ordered : ∀ p ∈ metadata.blocks, Legal lib p
  comments : metadata.blocks = [] →
    ∀ entry ∈ flattenGroups metadata.comments.entries, lib.appendComment (utf8 entry)
  seekTables : metadata.blocks = [] → ∀ t ∈ metadata.seekTables, Legal lib (.seekTable t)
  cueSheets : metadata.blocks = [] → ∀ c ∈ metadata.cueSheets, Legal lib (.cueSheet c)

/-- Every comment key that is written has a value. -/
structure KeysHaveValues (metadata : FlacEncodingMetadata) : Prop where
  ordered : ∀ p ∈ metadata.blocks, HasValues p
  comments : metadata.blocks = [] → ∀ group ∈ metadata.comments.entries, group.2 ≠ []

section

variable {metadata : FlacEncodingMetadata}
  (hvalid : validateFlacEncodingMetadata metadata = .ok ()) (hvalues : KeysHaveValues metadata)
  (hlegal : LegalMetadata lib metadata)
include hvalid hvalues hlegal

theorem builds_orderedMode (hblocks : metadata.blocks ≠ []) :
    Builds decoder (buildBlocks lib metadata) (writtenBlocks lib metadata) := by
  rw [validateFlacEncodingMetadata, if_pos hblocks] at hvalid
  simp only [validateOrderedMetadataBlocks, bind_eq_ok, require_eq_ok, forEach_eq_ok] at hvalid
  rw [buildBlocks, if_pos hblocks, writtenBlocks, if_pos hblocks]
  exact builds_ordered decoder lib hvalid.2.2 hvalues.ordered hlegal.ordered

theorem builds_groupedMode (hblocks : metadata.blocks = [])
    (htotal : totalBlocks metadata ≤ uint32Max) :
    Builds decoder (buildBlocks lib metadata) (writtenBlocks lib metadata) := by
  have hnot : ¬ metadata.blocks ≠ [] := not_not.mpr hblocks
  rw [validateFlacEncodingMetadata, if_neg hnot] at hvalid
  simp only [bind_eq_ok, require_eq_ok, forEach_eq_ok] at hvalid
  obtain ⟨hcomments, hpictures, happlications, -, hseekTables, hcueSheets⟩ := hvalid
  have hmap {α : Type} {embed : α → FlacMetadataBlock} {values : List α}
      (hv : ∀ x ∈ values, validateMetadataBlock (embed x) = .ok ())
      (hk : ∀ x ∈ values, HasValues (embed x)) (hl : ∀ x ∈ values, Legal lib (embed x)) :
      Builds decoder (buildOrderedMetadataBlocks lib (values.map embed)) (values.map embed) :=
    builds_ordered decoder lib (List.forall_mem_map.mpr hv) (List.forall_mem_map.mpr hk)
      (List.forall_mem_map.mpr hl)
  rw [buildBlocks, if_neg hnot, writtenBlocks, if_neg hnot, buildMetadataBlocks_eq lib htotal]
  refine ((((((builds_groupedComments decoder lib hcomments (hvalues.comments hblocks)
    (hlegal.comments hblocks)).append decoder ?_).append decoder ?_).append decoder ?_).append
      decoder ?_).append decoder ?_).append decoder ?_
  · exact hmap hpictures (fun _ _ => trivial) fun _ _ => trivial
  · exact hmap happlications (fun _ _ => trivial) fun _ _ => trivial
  · exact hmap hseekTables (fun _ _ => trivial) (hlegal.seekTables hblocks)
  · exact hmap hcueSheets (fun _ _ => trivial) (hlegal.cueSheets hblocks)
  · exact hmap (fun _ _ => rfl) (fun _ _ => trivial) fun _ _ => trivial
  · exact hmap (fun _ _ => rfl) (fun _ _ => trivial) fun _ _ => trivial

end

/-- The native blocks are counted as the public ones. -/
theorem totalBlocks_eq {metadata : FlacEncodingMetadata} (hvalues : KeysHaveValues metadata)
    (hblocks : metadata.blocks = []) : totalBlocks metadata = (writtenBlocks lib metadata).length := by
  have hflat : flattenGroups metadata.comments.entries = [] ↔ metadata.comments.entries = [] := by
    constructor
    · intro hnil
      by_contra hne
      obtain ⟨group, hgroup⟩ := List.exists_mem_of_ne_nil _ hne
      obtain ⟨value, hvalue⟩ :=
        List.exists_mem_of_ne_nil _ (hvalues.comments hblocks group hgroup)
      have hmem := mem_flattenGroups.mpr ⟨group, hgroup, value, hvalue, rfl⟩
      rw [hnil] at hmem
      cases hmem
    · intro hnil
      rw [hnil]
      rfl
  have hcomment : (if flattenGroups metadata.comments.entries = [] then 0 else 1) =
      (groupedComment lib metadata.comments).length := by
    by_cases hnil : metadata.comments.entries = []
    · rw [if_pos (hflat.mpr hnil), groupedComment, if_pos hnil]
      rfl
    · rw [if_neg (mt hflat.mp hnil), groupedComment, if_neg hnil]
      rfl
  rw [totalBlocks, hcomment, writtenBlocks, if_neg (not_not.mpr hblocks)]
  simp only [List.length_append, List.length_map]

/-! ## Reading what was written -/

/-- Built blocks behind STREAMINFO are read as the blocks they were built for. -/
theorem exists_readsAs_built {natives : List StreamMetadata} {blocks : List FlacMetadataBlock}
    (info : StreamInfo) (hall : List.Forall₂ (Built decoder) natives blocks)
    (hfits : ∀ p ∈ blocks, p.bodyLength ≤ maxBlockLength)
    (hvorbis : (blocks.map (·.kind)).count .vorbisComment ≤ 1) :
    ∃ payload, ReadsAs decoder (.streamInfo info :: natives) payload blocks := by
  have hnatives := (forall₂_forall_iff
    (P := fun native : StreamMetadata => native.length ≤ maxBlockLength)
    (fun _ _ hb => by rw [hb.length_eq]) hall).mpr hfits
  have hcontent : contentBlocks (.streamInfo info :: natives) = natives := by
    refine (List.filter_cons_of_neg (by simp [StreamMetadata.type])).trans
      (List.filter_eq_self.mpr fun native hnative => ?_)
    obtain ⟨p, hbuilt⟩ := exists_of_mem_forall₂ hall hnative
    have htype : native.type ≠ 0 := fun h => by
      have hkind := hbuilt.shows_.kind
      rw [(switchKind_eq_none native).mpr h] at hkind
      cases hkind
    simpa using htype
  have hshows : List.Forall₂ (Shows decoder) (contentBlocks (.streamInfo info :: natives)) blocks :=
    hcontent.symm ▸ hall.imp fun _ _ hb => hb.shows_
  refine exists_readsAs decoder ⟨info, List.mem_cons_self⟩ ?_ ?_ hshows
  · rwa [← length_ofKind_vorbisComment, length_ofKind_eq decoder hshows]
  · intro block hblock
    rcases List.mem_cons.mp hblock with rfl | hmem
    · exact ⟨show 34 ≤ maxBlockLength by decide, by simp⟩
    · obtain ⟨p, hbuilt⟩ := exists_of_mem_forall₂ hall hmem
      exact ⟨hnatives block hmem, hbuilt.counts⟩

/-- There is one comment block at most. -/
theorem count_writtenBlocks {metadata : FlacEncodingMetadata}
    (hvalid : validateFlacEncodingMetadata metadata = .ok ()) :
    ((writtenBlocks lib metadata).map (·.kind)).count .vorbisComment ≤ 1 := by
  rw [writtenBlocks]
  by_cases hblocks : metadata.blocks ≠ []
  · rw [validateFlacEncodingMetadata, if_pos hblocks] at hvalid
    simp only [validateOrderedMetadataBlocks, bind_eq_ok, require_eq_ok] at hvalid
    rw [if_pos hblocks, ← countP_vorbisComment]
    exact hvalid.1
  · have hother {α : Type} {kind : Kind} (embed : α → FlacMetadataBlock) (values : List α)
        (hkind : ∀ x, (embed x).kind = kind) (hne : kind ≠ .vorbisComment) :
        ((values.map embed).map (·.kind)).count .vorbisComment = 0 := by
      rw [List.count_eq_zero, List.map_map]
      intro hmem
      obtain ⟨x, -, hx⟩ := List.mem_map.mp hmem
      exact hne ((hkind x).symm.trans hx)
    have hcomment : ((groupedComment lib metadata.comments).map (·.kind)).count .vorbisComment ≤
        1 := by
      rw [groupedComment]
      split
      · exact Nat.zero_le 1
      · exact Nat.le_refl 1
    rw [if_neg hblocks]
    simp only [List.map_append, List.count_append,
      hother FlacMetadataBlock.picture _ (fun _ => rfl) (by decide),
      hother FlacMetadataBlock.application _ (fun _ => rfl) (by decide),
      hother FlacMetadataBlock.seekTable _ (fun _ => rfl) (by decide),
      hother FlacMetadataBlock.cueSheet _ (fun _ => rfl) (by decide),
      hother FlacMetadataBlock.padding _ (fun _ => rfl) (by decide),
      hother FlacMetadataBlock.unknown _ (fun _ => rfl) (by decide)]
    exact hcomment

theorem reduceOption_map_some (natives : List StreamMetadata) :
    (natives.map some).reduceOption = natives := by
  rw [List.reduceOption, List.filterMap_map]
  exact List.filterMap_some

/-- A libFLAC that finds nothing illegal. -/
def permissiveLibFlac : LibFlacMetadata where
  vendor := "reference libFLAC 1.5.0 20250211".toList
  setVendorString _ := true
  appendComment _ := true
  seekTableIsLegal _ := true
  cueSheetViolation _ _ := none

theorem legal_permissiveLibFlac (table : FlacSeekTable) :
    Legal permissiveLibFlac (.seekTable table) := rfl

/-- A comment with two values of one key, and a seek table. -/
def taggedMetadata : FlacEncodingMetadata :=
  sessionMetadata
    [.vorbisComment ⟨['v'], ⟨[(['A'], [['b'], ['c']])], by decide⟩⟩,
      .seekTable ⟨[⟨0, 0, 4096⟩, ⟨-1, 0, 0⟩]⟩]

/-- Comments of one key whose only value has the given length. -/
def filledComments (length : ℕ) : CommentMap :=
  ⟨[(['A'], [List.replicate length 'x'])], List.nodup_singleton _⟩

theorem vorbisCommentBytes_filledComments (vendor : Option Text) (length : ℕ) :
    vorbisCommentBytes vendor (filledComments length) =
      14 + vendor.elim 0 utf8ByteCount + length := by
  have hascii : ∀ c ∈ ['A'] ++ '=' :: List.replicate length 'x', c.toNat < 128 := by
    intro c hc
    rcases List.mem_append.mp hc with hc | hc
    · rw [List.mem_singleton.mp hc]
      decide
    · rcases List.mem_cons.mp hc with rfl | hc
      · decide
      · rw [List.eq_of_mem_replicate hc]
        decide
  have hentry : utf8ByteCount (['A'] ++ '=' :: List.replicate length 'x') = length + 2 := by
    rw [utf8ByteCount, utf8_ascii hascii]
    simp
  show 8 + vendor.elim 0 utf8ByteCount +
    (4 + utf8ByteCount (['A'] ++ '=' :: List.replicate length 'x') + 0 + 0) = _
  rw [hentry]
  omega

/-- Grouped metadata with these comments. -/
def filledMetadata (length : ℕ) : FlacEncodingMetadata :=
  { sessionMetadata [] with comments := filledComments length }

theorem validate_filledMetadata {length : ℕ} (h : 14 + length ≤ maxBlockLength) :
    validateFlacEncodingMetadata (filledMetadata length) = .ok () := by
  have hvalue : nul ∉ List.replicate length 'x' := fun hmem =>
    absurd (List.eq_of_mem_replicate hmem) (by decide)
  have hcomments : validateVorbisComments (filledComments length) none = .ok () := by
    simp only [validateVorbisComments, bind_eq_ok, require_eq_ok, forEach_eq_ok,
      vorbisCommentBytes_filledComments]
    refine ⟨by simp, fun group hgroup => ?_, h⟩
    obtain rfl := List.mem_singleton.mp hgroup
    have hkey : isNotBlank ['A'] = true ∧ '=' ∉ ['A'] ∧ nul ∉ ['A'] := by decide
    refine ⟨hkey.1, hkey.2.1, hkey.2.2, fun value hmem => ?_⟩
    obtain rfl := List.mem_singleton.mp hmem
    exact hvalue
  have hgrouped : (filledMetadata length).blocks = [] := rfl
  rw [validateFlacEncodingMetadata, if_neg (not_not.mpr hgrouped)]
  simp only [bind_eq_ok, require_eq_ok, forEach_eq_ok]
  exact ⟨hcomments, nofun, nofun, Nat.zero_le 1, nofun, nofun⟩

end JFlac.Metadata
