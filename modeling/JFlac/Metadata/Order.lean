import JFlac.Lib.Ranks
import JFlac.Metadata.Reading
import Mathlib

/-!
# Reading keeps the blocks and their order

`Shows` says which public block shows the contents of a native one. Each typed array holds the blocks
of its type, the order table holds the kinds and ranks of the blocks, and so `toPublicMetadata` finds
one public block for each native block other than STREAMINFO.
-/

namespace JFlac.Metadata

open Lib

variable (decoder : Utf8Decoder)

/-! ## Public blocks that show native blocks -/

/-- The public seek point with the contents of a native one; a placeholder, whose number is all ones,
has the number -1. -/
def showSeekPoint (point : SeekPoint) : FlacSeekPoint :=
  ⟨.ofInt point.sampleNumber.toInt, .ofInt point.streamOffset.toInt,
    .ofNat point.frameSamples.toNat⟩

/-- The public index with the contents of a native one. -/
def showIndex (index : CueSheetIndex) : FlacCueSheetIndex :=
  ⟨.ofBitVec index.offset, .ofNat index.number.toNat⟩

/-- The public track with the contents of a native one. -/
def showTrack (track : CueSheetTrack) : FlacCueSheetTrack where
  offset := .ofBitVec track.offset
  number := .ofNat track.number.toNat
  isrc := decoder.decode (cString track.isrc.toList)
  type := .ofNat track.type.toNat
  preEmphasis := track.preEmphasis ≠ 0
  indices := track.indices.map showIndex

/-- A public block has the contents of a native block. -/
def Shows : StreamMetadata → FlacMetadataBlock → Prop
  | .padding length, .padding p => p.length = length
  | .application id data, .application a => a = ⟨id, data⟩
  | .seekTable points, .seekTable table => table.points = points.map showSeekPoint
  | .vorbisComment vendor comments, .vorbisComment c =>
    c.vendor = decoder.decode vendor ∧
      c.comments.entries = groupedByKey (comments.map decoder.decode)
  | .cueSheet sheet, .cueSheet c =>
    c = ⟨decoder.decode (cString sheet.mediaCatalogNumber.toList), .ofBitVec sheet.leadIn,
      sheet.isCd, sheet.tracks.map (showTrack decoder)⟩
  | .picture p, .picture q =>
    q = ⟨.ofBitVec p.type, decoder.decode (cString p.mimeType),
      decoder.decode (cString p.description), .ofBitVec p.width, .ofBitVec p.height,
      .ofBitVec p.depth, .ofBitVec p.colors, p.data⟩
  | .unknown type data, .unknown u => u.type = type.code ∧ u.data = data
  | _, _ => False

theorem FlacPaddingBlock.eq_of_length {p q : FlacPaddingBlock} (h : p.length = q.length) : p = q := by
  cases p
  cases q
  cases h
  rfl

theorem FlacUnknownMetadataBlock.eq_of_fields {u v : FlacUnknownMetadataBlock} (htype : u.type = v.type)
    (hdata : u.data = v.data) : u = v := by
  cases u
  cases v
  cases htype
  cases hdata
  rfl

theorem FlacSeekTable.eq_of_points {t u : FlacSeekTable} (h : t.points = u.points) : t = u := by
  cases t
  cases u
  cases h
  rfl

theorem FlacVorbisComment.eq_of_fields {c d : FlacVorbisComment} (hvendor : c.vendor = d.vendor)
    (hentries : c.comments.entries = d.comments.entries) : c = d := by
  obtain ⟨vendor, comments⟩ := c
  obtain ⟨vendor', comments'⟩ := d
  cases hvendor
  exact congrArg (FlacVorbisComment.mk vendor) (CommentMap.eq_of_entries hentries)

/-- The cast to `jlong` keeps the bits, so the two's complement value of a seek point's number is the
number itself, and -1 for a placeholder. -/
theorem newSeekPoint_eq (point : SeekPoint) : newSeekPoint point = showSeekPoint point := by
  obtain ⟨sampleNumber, streamOffset, frameSamples⟩ := point
  have hcast : ∀ x : BitVec 64, Int64.ofBitVec x = Int64.ofInt x.toInt := by
    intro x
    rw [Int64.ofInt, BitVec.ofInt_toInt]
    rfl
  have hsamples : Int32.ofBitVec (frameSamples.setWidth 32) = Int32.ofNat frameSamples.toNat := by
    rw [← BitVec.ofNat_toNat]
    rfl
  unfold newSeekPoint showSeekPoint
  by_cases hone : sampleNumber = BitVec.allOnes 64
  · rw [if_pos hone, hone, hcast, hsamples]
    rfl
  · rw [if_neg hone, hcast, hcast, hsamples]

/-- The seek table that `new_seek_table` makes. -/
theorem shows_seekTable {points : List SeekPoint} {table : FlacSeekTable} :
    Shows decoder (.seekTable points) (.seekTable table) ↔ table = ⟨points.map newSeekPoint⟩ := by
  rw [Shows, funext newSeekPoint_eq]
  exact ⟨fun h => FlacSeekTable.eq_of_points h, fun h => congrArg _ h⟩

/-- The comment that `toPublicMetadata` makes. -/
theorem shows_vorbisComment {vendor : List UInt8} {comments : List (List UInt8)}
    {c : FlacVorbisComment} :
    Shows decoder (.vorbisComment vendor comments) (.vorbisComment c) ↔
      c = ⟨decoder.decode vendor, commentMap (comments.map decoder.decode)⟩ := by
  rw [Shows, ← groupEntries_eq]
  constructor
  · rintro ⟨hvendor, hentries⟩
    exact FlacVorbisComment.eq_of_fields hvendor hentries
  · rintro rfl
    exact ⟨rfl, rfl⟩

/-- A native block is shown by one public block at most. -/
theorem Shows.unique {block : StreamMetadata} {p q : FlacMetadataBlock} (hp : Shows decoder block p)
    (hq : Shows decoder block q) : p = q := by
  cases block <;> cases p <;> try exact hp.elim
  all_goals cases q <;> try exact hq.elim
  case padding => exact congrArg _ (FlacPaddingBlock.eq_of_length (hp.trans hq.symm))
  case unknown =>
    exact congrArg _ (FlacUnknownMetadataBlock.eq_of_fields (hp.1.trans hq.1.symm)
      (hp.2.trans hq.2.symm))
  case seekTable =>
    exact congrArg _ (FlacSeekTable.eq_of_points (hp.trans hq.symm))
  case vorbisComment =>
    exact congrArg _ (FlacVorbisComment.eq_of_fields (hp.1.trans hq.1.symm)
      (hp.2.trans hq.2.symm))
  all_goals
    rw [Shows] at hp hq
    rw [hp, hq]

/-- Every block of a FLAC file other than STREAMINFO is shown by a public block. -/
theorem exists_shows {block : StreamMetadata} (hfits : block.Fits) (htype : block.type ≠ 0) :
    ∃ p, Shows decoder block p := by
  have hlength := hfits.length_le
  cases block with
  | streamInfo info => exact absurd rfl htype
  | padding length =>
    exact ⟨.padding ⟨length, Int.natCast_nonneg _, Int.ofNat_le.mpr hlength⟩, rfl⟩
  | application id data => exact ⟨.application _, rfl⟩
  | seekTable points => exact ⟨.seekTable _, (shows_seekTable decoder).mpr rfl⟩
  | vorbisComment vendor comments =>
    exact ⟨.vorbisComment _, (shows_vorbisComment decoder).mpr rfl⟩
  | cueSheet sheet => exact ⟨.cueSheet _, rfl⟩
  | picture p => exact ⟨.picture _, rfl⟩
  | unknown type data =>
    exact ⟨.unknown ⟨type.code, data, Int.ofNat_le.mpr type.min_le, Int.ofNat_le.mpr type.le_max,
      hlength⟩, rfl, rfl⟩

/-- The kind of a public block. -/
def FlacMetadataBlock.kind : FlacMetadataBlock → Kind
  | .vorbisComment _ => .vorbisComment
  | .picture _ => .picture
  | .application _ => .application
  | .seekTable _ => .seekTable
  | .cueSheet _ => .cueSheet
  | .padding _ => .padding
  | .unknown _ => .unknown

theorem switchKind_unknown (type : UnknownType) : switchKind type.code = some .unknown := by
  obtain ⟨code, hmin, -⟩ := type
  obtain ⟨n, rfl⟩ := Nat.exists_eq_add_of_le' hmin
  rfl

/-- The `switch` and the conditions of the fill passes classify alike. -/
theorem fills_iff (kind : Kind) (block : StreamMetadata) :
    fills kind block.type = true ↔ switchKind block.type = some kind := by
  cases block with
  | unknown type data =>
    obtain ⟨code, hmin, -⟩ := type
    obtain ⟨n, rfl⟩ := Nat.exists_eq_add_of_le' hmin
    cases kind <;> simp [fills, switchKind, StreamMetadata.type]
  | _ => cases kind <;> simp [fills, switchKind, StreamMetadata.type]

theorem switchKind_eq_none (block : StreamMetadata) :
    switchKind block.type = none ↔ block.type = 0 := by
  cases block with
  | unknown type data =>
    have hmin := type.min_le
    show switchKind type.code = none ↔ type.code = 0
    rw [switchKind_unknown]
    constructor
    · nofun
    · omega
  | _ => simp [switchKind, StreamMetadata.type]

theorem Shows.kind {block : StreamMetadata} {p : FlacMetadataBlock} (h : Shows decoder block p) :
    switchKind block.type = some p.kind := by
  cases block <;> cases p <;> try exact h.elim
  case unknown => exact switchKind_unknown _
  all_goals rfl

theorem Shows.nativeType {block : StreamMetadata} {p : FlacMetadataBlock} (h : Shows decoder block p) :
    p.nativeType = block.type := by
  cases block <;> cases p <;> try exact h.elim
  case unknown => exact h.1
  all_goals rfl

/-! ## The counting pass -/

/-- The blocks of one kind. -/
def ofKind (kind : Kind) (chain : List StreamMetadata) : List StreamMetadata :=
  chain.filter (fills kind ·.type)

/-- The blocks other than STREAMINFO. -/
def contentBlocks (chain : List StreamMetadata) : List StreamMetadata := chain.filter (·.type ≠ 0)

theorem countPass_append (chain : List StreamMetadata) (block : StreamMetadata) :
    countPass (chain ++ [block]) = countStep (countPass chain) block := List.foldl_append

theorem ofKind_append (kind : Kind) (chain : List StreamMetadata) (block : StreamMetadata) :
    ofKind kind (chain ++ [block]) =
      ofKind kind chain ++ if switchKind block.type = some kind then [block] else [] := by
  rw [ofKind, List.filter_append, List.filter_singleton]
  by_cases h : switchKind block.type = some kind
  · rw [if_pos h, (fills_iff kind block).mpr h]
    rfl
  · rw [if_neg h, Bool.eq_false_iff.mpr (mt (fills_iff kind block).mp h)]
    rfl

theorem contentBlocks_append (chain : List StreamMetadata) (block : StreamMetadata) :
    contentBlocks (chain ++ [block]) =
      contentBlocks chain ++ if switchKind block.type = none then [] else [block] := by
  rw [contentBlocks, List.filter_append, List.filter_singleton]
  by_cases h : switchKind block.type = none
  · rw [if_pos h, (switchKind_eq_none block).mp h]
    rfl
  · rw [if_neg h, decide_eq_true (mt (switchKind_eq_none block).mpr h)]
    rfl

/-- The counters are the numbers of blocks. -/
theorem countPass_count (chain : List StreamMetadata) (kind : Kind) :
    (countPass chain).count kind = (ofKind kind chain).length := by
  induction chain using List.reverseRecOn with
  | nil => rfl
  | append_singleton chain block ih =>
    rw [countPass_append, ofKind_append, List.length_append, ← ih, countStep]
    cases h : switchKind block.type with
    | none => rfl
    | some k =>
      by_cases hk : kind = k
      · subst hk
        simp
      · simp [Function.update_of_ne hk, Ne.symm hk]

theorem countPass_ordered (chain : List StreamMetadata) :
    (countPass chain).ordered = (contentBlocks chain).length := by
  induction chain using List.reverseRecOn with
  | nil => rfl
  | append_singleton chain block ih =>
    rw [countPass_append, contentBlocks_append, List.length_append, ← ih, countStep]
    cases h : switchKind block.type <;> rfl

theorem countPass_vorbis (chain : List StreamMetadata) :
    (countPass chain).vorbis = (ofKind .vorbisComment chain).getLast? := by
  induction chain using List.reverseRecOn with
  | nil => rfl
  | append_singleton chain block ih =>
    rw [countPass_append, ofKind_append, countStep]
    cases h : switchKind block.type with
    | none => simpa using ih
    | some k =>
      by_cases hk : k = .vorbisComment
      · simp [hk]
      · simpa [hk] using ih

theorem countPass_streamInfo {chain : List StreamMetadata}
    (h : ∃ info, StreamMetadata.streamInfo info ∈ chain) :
    ∃ info, (countPass chain).streamInfo = some (.streamInfo info) := by
  obtain ⟨info, hinfo⟩ := h
  induction chain using List.reverseRecOn with
  | nil => simp at hinfo
  | append_singleton chain block ih =>
    rw [countPass_append, countStep]
    cases hkind : switchKind block.type with
    | none =>
      have htype := (switchKind_eq_none block).mp hkind
      cases block with
      | streamInfo info => exact ⟨info, rfl⟩
      | unknown type data => exact absurd type.min_le (by rw [show type.code = 0 from htype]; decide)
      | _ => simp [StreamMetadata.type] at htype
    | some k =>
      rcases List.mem_append.mp hinfo with hmem | hmem
      · exact ih hmem
      · rw [← List.mem_singleton.mp hmem] at hkind
        simp [switchKind, StreamMetadata.type] at hkind

/-! ## The fill passes -/

theorem fillPass_eq {α : Type} {selects : ℕ → Bool} {convert : StreamMetadata → Except Throwable α}
    {chain : List StreamMetadata} {values : List α}
    (h : List.Forall₂ (fun block value => convert block = .ok value)
      (chain.filter (selects ·.type)) values) (done : List α) :
    fillPass selects convert chain (done.map some ++ List.replicate values.length none)
      done.length = .ok ((done ++ values).map some) := by
  induction chain generalizing values done with
  | nil =>
    cases h
    simp [fillPass]
  | cons block chain ih =>
    rw [fillPass]
    cases hselects : selects block.type with
    | false =>
      rw [List.filter_cons_of_neg (by simp [hselects])] at h
      exact ih h done
    | true =>
      rw [List.filter_cons_of_pos (by simp [hselects])] at h
      cases h with
      | cons hvalue hrest =>
        rename_i value values
        have hset : setElement (done.map some ++ List.replicate (value :: values).length none)
            done.length value =
              .ok ((done ++ [value]).map some ++ List.replicate values.length none) := by
          rw [setElement, if_pos (by simp)]
          simp [List.replicate_succ]
        have hlength : done.length + 1 = (done ++ [value]).length := by simp
        simp only [if_true, hvalue, hset, hlength]
        rw [ih hrest, List.append_assoc]
        rfl

theorem elements_map_some {α : Type} (values : List α) : elements (values.map some) = .ok values := by
  induction values with
  | nil => rfl
  | cons value values ih => rw [List.map_cons, elements, ih]

/-- The array of one type holds the blocks of this type. -/
theorem filledArray_eq {α : Type} {kind : Kind} {convert : StreamMetadata → Except Throwable α}
    {chain : List StreamMetadata} {values : List α}
    (h : List.Forall₂ (fun block value => convert block = .ok value) (ofKind kind chain) values) :
    filledArray kind ((countPass chain).count kind) convert chain = .ok values := by
  have hfill := fillPass_eq h []
  rw [filledArray, countPass_count, h.length_eq]
  simp only [List.map_nil, List.nil_append, List.length_nil] at hfill
  rw [hfill]
  exact elements_map_some values

/-! ## The order pass -/

/-- The order table holds the type and the rank of each block. -/
theorem orderPass_eq (chain : List StreamMetadata) (kinds : List Kind)
    (hkinds : (contentBlocks chain).map (switchKind ·.type) = kinds.map some)
    (types indices : List ℕ) (hlength : types.length = indices.length) (counter : Kind → ℕ)
    (hvorbis : counter .vorbisComment + kinds.count .vorbisComment ≤ 1) :
    orderPass chain (types ++ List.replicate kinds.length 0)
        (indices ++ List.replicate kinds.length 0) types.length counter =
      .ok (types ++ (contentBlocks chain).map (·.type), indices ++ ranks kinds counter) := by
  induction chain generalizing kinds types indices counter with
  | nil =>
    cases kinds with
    | nil => simp [orderPass, contentBlocks, ranks]
    | cons kind kinds => simp [contentBlocks] at hkinds
  | cons block chain ih =>
    rw [orderPass]
    cases hkind : switchKind block.type with
    | none =>
      have hskip : contentBlocks (block :: chain) = contentBlocks chain :=
        List.filter_cons_of_neg (by simp [(switchKind_eq_none block).mp hkind])
      rw [hskip] at hkinds ⊢
      exact ih kinds hkinds types indices hlength counter hvorbis
    | some kind =>
      have htype : block.type ≠ 0 := fun h => by
        rw [(switchKind_eq_none block).mpr h] at hkind
        cases hkind
      have htake : contentBlocks (block :: chain) = block :: contentBlocks chain :=
        List.filter_cons_of_pos (by simp [htype])
      rw [htake] at hkinds ⊢
      cases kinds with
      | nil => simp at hkinds
      | cons k kinds =>
        simp only [List.map_cons, List.cons.injEq] at hkinds
        obtain ⟨hk, hkinds⟩ := hkinds
        obtain rfl : kind = k := Option.some.inj (hkind.symm.trans hk)
        have hindex : (if kind = .vorbisComment then 0 else counter kind) = counter kind := by
          by_cases hv : kind = .vorbisComment
          · subst hv
            rw [List.count_cons_self] at hvorbis
            rw [if_pos rfl]
            omega
          · rw [if_neg hv]
        have hset : ∀ (array : List ℕ) (value : ℕ),
            setInt (array ++ List.replicate (kind :: kinds).length 0) array.length value =
              .ok ((array ++ [value]) ++ List.replicate kinds.length 0) := by
          intro array value
          rw [setInt, if_pos (by simp)]
          simp [List.replicate_succ]
        have hset' := hset indices (counter kind)
        rw [← hlength] at hset'
        have hnext : types.length + 1 = (types ++ [block.type]).length := by simp
        simp only [hindex, hset, hset', hnext]
        rw [ih kinds hkinds _ _ (by simp [hlength])]
        · simp [ranks]
        · by_cases hv : kind = .vorbisComment
          · subst hv
            rw [List.count_cons_self] at hvorbis
            rw [Function.update_self]
            omega
          · rw [List.count_cons_of_ne hv] at hvorbis
            rw [Function.update_of_ne (Ne.symm hv)]
            exact hvorbis

/-! ## Conversions of the blocks of a FLAC file -/

theorem newUtf8String_of_le {bytes : List UInt8} (h : bytes.length ≤ maxBlockLength) :
    newUtf8String decoder bytes = .ok (decoder.decode bytes) :=
  if_neg (Nat.not_lt_of_le (h.trans (by decide)))

theorem length_cString_le (bytes : List UInt8) : (cString bytes).length ≤ bytes.length :=
  (List.takeWhile_sublist _).length_le

theorem newEntries_of_le {comments : List (List UInt8)}
    (h : ∀ entry ∈ comments, entry.length ≤ maxBlockLength) :
    newEntries decoder comments = .ok (comments.map decoder.decode) := by
  induction comments with
  | nil => rfl
  | cons entry comments ih =>
    simp only [newEntries, newUtf8String_of_le decoder (h entry List.mem_cons_self),
      ih fun e he => h e (List.mem_cons_of_mem entry he), List.map_cons]

/-- An entry is no longer than its block. -/
theorem length_entry_le {vendor : List UInt8} {comments : List (List UInt8)} {entry : List UInt8}
    (h : entry ∈ comments) :
    entry.length ≤ (StreamMetadata.vorbisComment vendor comments).length := by
  have := List.le_sum_of_mem (List.mem_map_of_mem (f := fun e : List UInt8 => 4 + e.length) h)
  rw [StreamMetadata.length]
  omega

theorem newCueSheetTrack_eq (track : CueSheetTrack) :
    newCueSheetTrack decoder track = .ok (showTrack decoder track) := by
  have hisrc : (cString track.isrc.toList).length ≤ maxBlockLength :=
    (length_cString_le _).trans (by rw [Vector.length_toList]; decide)
  have hnarrow {w : ℕ} (x : BitVec w) : Int32.ofBitVec (x.setWidth 32) = Int32.ofNat x.toNat := by
    rw [← BitVec.ofNat_toNat]
    rfl
  have hindex : newCueSheetIndex = showIndex :=
    funext fun index => by rw [newCueSheetIndex, showIndex, hnarrow]
  simp only [newCueSheetTrack, newUtf8String_of_le decoder hisrc, showTrack, hindex, hnarrow]

theorem newCueSheetTracks_eq (tracks : List CueSheetTrack) :
    newCueSheetTracks decoder tracks = .ok (tracks.map (showTrack decoder)) := by
  induction tracks with
  | nil => rfl
  | cons track tracks ih => simp only [newCueSheetTracks, newCueSheetTrack_eq, ih, List.map_cons]

/-! Each constructor gives the public block that shows the native one. -/

section

variable {block : StreamMetadata} (hfits : block.Fits)
include hfits

theorem newPaddingBlock_of_shows {p : FlacPaddingBlock} (h : Shows decoder block (.padding p)) :
    newPaddingBlock block = .ok p := by
  cases block with
  | padding length =>
    have hle : length ≤ maxBlockLength := hfits.length_le
    have hint : (BitVec.ofNat 32 length).toInt = length := by
      rw [BitVec.toInt_ofNat']
      exact Int.bmod_eq_of_le (by omega) (by rw [maxBlockLength] at hle; omega)
    rw [newPaddingBlock, hint, FlacPaddingBlock.make, dif_pos ⟨by omega, Int.ofNat_le.mpr hle⟩]
    exact congrArg _ (FlacPaddingBlock.eq_of_length (Eq.symm h))
  | _ => exact h.elim

theorem newApplicationBlock_of_shows {a : FlacApplicationBlock}
    (h : Shows decoder block (.application a)) : newApplicationBlock block = .ok a := by
  cases block with
  | application id data =>
    have hle := hfits.length_le
    rw [StreamMetadata.length, maxBlockLength] at hle
    rw [Shows] at h
    rw [newApplicationBlock, if_neg (by rw [intMax]; omega), h]
  | _ => exact h.elim

omit hfits in
theorem newSeekTable_of_shows {t : FlacSeekTable} (h : Shows decoder block (.seekTable t)) :
    newSeekTable block = .ok t := by
  cases block with
  | seekTable points =>
    rw [shows_seekTable] at h
    rw [newSeekTable, h]
  | _ => exact h.elim

omit hfits in
theorem newCueSheet_of_shows {c : FlacCueSheet} (h : Shows decoder block (.cueSheet c)) :
    newCueSheet decoder block = .ok c := by
  cases block with
  | cueSheet sheet =>
    have hcatalog : (cString sheet.mediaCatalogNumber.toList).length ≤ maxBlockLength :=
      (length_cString_le _).trans (by rw [Vector.length_toList]; decide)
    rw [Shows] at h
    simp only [newCueSheet, newCueSheetTracks_eq, newUtf8String_of_le decoder hcatalog, h]
  | _ => exact h.elim

theorem newPicture_of_shows {q : FlacPicture} (h : Shows decoder block (.picture q)) :
    newPicture decoder block = .ok q := by
  cases block with
  | picture p =>
    have hle := hfits.length_le
    rw [StreamMetadata.length] at hle
    have hmime : (cString p.mimeType).length ≤ maxBlockLength :=
      (length_cString_le _).trans (by omega)
    have hdescription : (cString p.description).length ≤ maxBlockLength :=
      (length_cString_le _).trans (by omega)
    rw [Shows] at h
    rw [newPicture, if_neg (by rw [intMax]; rw [maxBlockLength] at hle; omega)]
    simp only [newUtf8String_of_le decoder hmime, newUtf8String_of_le decoder hdescription, h]
  | _ => exact h.elim

theorem newUnknownMetadataBlock_of_shows {u : FlacUnknownMetadataBlock}
    (h : Shows decoder block (.unknown u)) : newUnknownMetadataBlock block = .ok u := by
  cases block with
  | unknown type data =>
    have hle : data.length ≤ maxBlockLength := hfits.length_le
    have htype : (7 : ℤ) ≤ type.code ∧ (type.code : ℤ) ≤ 126 :=
      ⟨Int.ofNat_le.mpr type.min_le, Int.ofNat_le.mpr type.le_max⟩
    rw [newUnknownMetadataBlock, if_neg (by rw [intMax]; rw [maxBlockLength] at hle; omega),
      FlacUnknownMetadataBlock.make, dif_pos htype, dif_pos hle]
    exact congrArg _ (FlacUnknownMetadataBlock.eq_of_fields h.1.symm h.2.symm)
  | _ => exact h.elim

theorem newVorbisComment_of_shows {c : FlacVorbisComment}
    (h : Shows decoder block (.vorbisComment c)) :
    ∃ entries, newVorbisComment decoder (some block) = .ok (some c.vendor, entries) ∧
      c.comments = commentMap entries := by
  cases block with
  | vorbisComment vendor comments =>
    have hle := hfits.length_le
    have hvendor : vendor.length ≤ maxBlockLength := by
      rw [StreamMetadata.length] at hle
      omega
    have hentries : ∀ entry ∈ comments, entry.length ≤ maxBlockLength :=
      fun entry hentry => (length_entry_le hentry).trans hle
    rw [shows_vorbisComment] at h
    refine ⟨comments.map decoder.decode, ?_, by rw [h]⟩
    simp only [newVorbisComment, newUtf8String_of_le decoder hvendor,
      newEntries_of_le decoder hentries, h]
  | _ => exact h.elim

end

/-! ## The payload of a chain -/

/-! The public blocks of one type. -/

def FlacMetadataBlock.vorbisComment? : FlacMetadataBlock → Option FlacVorbisComment
  | .vorbisComment c => some c
  | _ => none

def FlacMetadataBlock.picture? : FlacMetadataBlock → Option FlacPicture
  | .picture p => some p
  | _ => none

def FlacMetadataBlock.application? : FlacMetadataBlock → Option FlacApplicationBlock
  | .application a => some a
  | _ => none

def FlacMetadataBlock.seekTable? : FlacMetadataBlock → Option FlacSeekTable
  | .seekTable t => some t
  | _ => none

def FlacMetadataBlock.cueSheet? : FlacMetadataBlock → Option FlacCueSheet
  | .cueSheet c => some c
  | _ => none

def FlacMetadataBlock.padding? : FlacMetadataBlock → Option FlacPaddingBlock
  | .padding p => some p
  | _ => none

def FlacMetadataBlock.unknown? : FlacMetadataBlock → Option FlacUnknownMetadataBlock
  | .unknown u => some u
  | _ => none

/-- `pick` finds the blocks of one kind, and `embed` makes them blocks again. -/
def Picks {α : Type} (kind : Kind) (pick : FlacMetadataBlock → Option α)
    (embed : α → FlacMetadataBlock) : Prop :=
  ∀ p, if p.kind = kind then ∃ value, p = embed value ∧ pick p = some value else pick p = none

theorem picks_vorbisComment :
    Picks .vorbisComment FlacMetadataBlock.vorbisComment? .vorbisComment := by
  rintro ⟨⟩ <;> simp [FlacMetadataBlock.kind, FlacMetadataBlock.vorbisComment?]

theorem picks_picture : Picks .picture FlacMetadataBlock.picture? .picture := by
  rintro ⟨⟩ <;> simp [FlacMetadataBlock.kind, FlacMetadataBlock.picture?]

theorem picks_application : Picks .application FlacMetadataBlock.application? .application := by
  rintro ⟨⟩ <;> simp [FlacMetadataBlock.kind, FlacMetadataBlock.application?]

theorem picks_seekTable : Picks .seekTable FlacMetadataBlock.seekTable? .seekTable := by
  rintro ⟨⟩ <;> simp [FlacMetadataBlock.kind, FlacMetadataBlock.seekTable?]

theorem picks_cueSheet : Picks .cueSheet FlacMetadataBlock.cueSheet? .cueSheet := by
  rintro ⟨⟩ <;> simp [FlacMetadataBlock.kind, FlacMetadataBlock.cueSheet?]

theorem picks_padding : Picks .padding FlacMetadataBlock.padding? .padding := by
  rintro ⟨⟩ <;> simp [FlacMetadataBlock.kind, FlacMetadataBlock.padding?]

theorem picks_unknown : Picks .unknown FlacMetadataBlock.unknown? .unknown := by
  rintro ⟨⟩ <;> simp [FlacMetadataBlock.kind, FlacMetadataBlock.unknown?]

/-- Embedding what was picked gives the blocks of the kind. -/
theorem Picks.map_filterMap {α : Type} {kind : Kind} {pick : FlacMetadataBlock → Option α}
    {embed : α → FlacMetadataBlock} (h : Picks kind pick embed) (blocks : List FlacMetadataBlock) :
    (blocks.filterMap pick).map embed = blocks.filter (·.kind = kind) := by
  induction blocks with
  | nil => rfl
  | cons p blocks ih =>
    have hp := h p
    by_cases hk : p.kind = kind
    · rw [if_pos hk] at hp
      obtain ⟨value, hvalue, hpick⟩ := hp
      rw [List.filterMap_cons_some hpick, List.map_cons, ih, ← hvalue,
        List.filter_cons_of_pos (by simpa using hk)]
    · rw [if_neg hk] at hp
      rw [List.filterMap_cons_none hp, ih, List.filter_cons_of_neg (by simpa using hk)]

theorem Picks.length_filterMap {α : Type} {kind : Kind} {pick : FlacMetadataBlock → Option α}
    {embed : α → FlacMetadataBlock} (h : Picks kind pick embed) (blocks : List FlacMetadataBlock) :
    (blocks.filterMap pick).length = (blocks.map (·.kind)).count kind := by
  rw [← List.length_map embed, h.map_filterMap, List.count_eq_countP, List.countP_map,
    List.countP_eq_length_filter]
  congr 1

theorem contentBlocks_filter (kind : Kind) (chain : List StreamMetadata) :
    (contentBlocks chain).filter (fills kind ·.type) = ofKind kind chain := by
  rw [contentBlocks, List.filter_filter, ofKind]
  refine List.filter_congr fun block _ => ?_
  cases hfills : fills kind block.type with
  | false => rfl
  | true =>
    have htype : block.type ≠ 0 := fun h => by
      have hkind := (fills_iff kind block).mp hfills
      rw [(switchKind_eq_none block).mpr h] at hkind
      cases hkind
    simp [htype]

theorem forall₂_fits {chain : List StreamMetadata} (hfits : ∀ block ∈ chain, block.Fits)
    {blocks : List FlacMetadataBlock}
    (h : List.Forall₂ (Shows decoder) (contentBlocks chain) blocks) :
    List.Forall₂ (fun block p => block.Fits ∧ Shows decoder block p) (contentBlocks chain) blocks := by
  rw [List.forall₂_iff_zip] at h ⊢
  refine ⟨h.1, fun {block p} hmem => ⟨hfits block ?_, h.2 hmem⟩⟩
  exact List.mem_of_mem_filter (List.of_mem_zip hmem).1

/-- There are as many public blocks of a kind as native ones. -/
theorem length_ofKind_eq {chain : List StreamMetadata} {blocks : List FlacMetadataBlock}
    (h : List.Forall₂ (Shows decoder) (contentBlocks chain) blocks) (kind : Kind) :
    (ofKind kind chain).length = (blocks.map (·.kind)).count kind := by
  rw [← contentBlocks_filter]
  generalize contentBlocks chain = natives at h
  induction h with
  | nil => rfl
  | cons hs _ ih =>
    rename_i block p natives blocks _
    have hkind : fills kind block.type = true ↔ p.kind = kind := by
      rw [fills_iff, hs.kind, Option.some.injEq]
    by_cases hk : p.kind = kind
    · rw [List.filter_cons, if_pos (hkind.mpr hk), List.map_cons, hk, List.count_cons_self,
        List.length_cons, ih]
    · rw [List.filter_cons, if_neg (mt hkind.mp hk), List.map_cons, List.count_cons_of_ne hk, ih]

/-- The blocks of one kind and their public blocks correspond. -/
theorem forall₂_ofKind {α : Type} {kind : Kind} {pick : FlacMetadataBlock → Option α}
    {embed : α → FlacMetadataBlock} {S : StreamMetadata → α → Prop} (hpick : Picks kind pick embed)
    (hS : ∀ block value, block.Fits → Shows decoder block (embed value) → S block value)
    {chain : List StreamMetadata} (hfits : ∀ block ∈ chain, block.Fits)
    {blocks : List FlacMetadataBlock}
    (h : List.Forall₂ (Shows decoder) (contentBlocks chain) blocks) :
    List.Forall₂ S (ofKind kind chain) (blocks.filterMap pick) := by
  rw [← contentBlocks_filter]
  refine forall₂_filterMap (fun block p hp => ?_) (forall₂_fits decoder hfits h)
  have hp' := hpick p
  have hkind : fills kind block.type = true ↔ p.kind = kind := by
    rw [fills_iff, hp.2.kind, Option.some.injEq]
  by_cases hk : p.kind = kind
  · rw [if_pos hk] at hp'
    obtain ⟨value, rfl, hvalue⟩ := hp'
    rw [if_pos (hkind.mpr hk)]
    exact ⟨value, hvalue, hS block value hp.1 hp.2⟩
  · rw [if_neg hk] at hp'
    rw [if_neg (mt hkind.mp hk)]
    exact hp'

/-- The payload of a chain with the given public blocks. -/
structure NativeMetadataPayload.Holds (payload : NativeMetadataPayload)
    (blocks : List FlacMetadataBlock) : Prop where
  vorbisComment : payload.vorbisComment =
    (blocks.filterMap FlacMetadataBlock.vorbisComment?).head?
  pictures : payload.pictures = blocks.filterMap FlacMetadataBlock.picture?
  applicationBlocks : payload.applicationBlocks =
    blocks.filterMap FlacMetadataBlock.application?
  seekTables : payload.seekTables = blocks.filterMap FlacMetadataBlock.seekTable?
  cueSheets : payload.cueSheets = blocks.filterMap FlacMetadataBlock.cueSheet?
  paddingBlocks : payload.paddingBlocks = blocks.filterMap FlacMetadataBlock.padding?
  unknownBlocks : payload.unknownBlocks = blocks.filterMap FlacMetadataBlock.unknown?
  types : payload.metadataBlockTypes.map switchKind = blocks.map (some ·.kind)
  indices : payload.metadataBlockIndices = ranks (blocks.map (·.kind)) fun _ => 0

/-- The comment that is read is the one of the only comment block. -/
theorem newVorbisComment_chain {chain : List StreamMetadata}
    (hvorbis : (ofKind .vorbisComment chain).length ≤ 1) {comments : List FlacVorbisComment}
    (h : List.Forall₂ (fun block c => ∃ entries,
      newVorbisComment decoder (some block) = .ok (some c.vendor, entries) ∧
        c.comments = commentMap entries) (ofKind .vorbisComment chain) comments) :
    ∃ vendor entries, newVorbisComment decoder (countPass chain).vorbis = .ok (vendor, entries) ∧
      (vendor.map fun vendor => FlacVorbisComment.mk vendor (commentMap entries)) =
        comments.head? := by
  rw [countPass_vorbis]
  generalize ofKind .vorbisComment chain = natives at hvorbis h ⊢
  cases h with
  | nil => exact ⟨none, [], rfl, rfl⟩
  | cons hblock hrest =>
    rename_i block c chain' comments'
    obtain ⟨entries, hread, hc⟩ := hblock
    have hnil : chain' = [] := List.eq_nil_of_length_eq_zero (by simpa using hvorbis)
    subst hnil
    exact ⟨some c.vendor, entries, hread, by rw [← hc]; rfl⟩

/-- Reading succeeds on the chain of a FLAC file with at most one comment block. -/
theorem readMetadata_holds {chain : List StreamMetadata}
    (hinfo : ∃ info, StreamMetadata.streamInfo info ∈ chain)
    (hvorbis : (ofKind .vorbisComment chain).length ≤ 1) (hfits : ∀ block ∈ chain, block.Fits)
    {blocks : List FlacMetadataBlock}
    (h : List.Forall₂ (Shows decoder) (contentBlocks chain) blocks) :
    ∃ payload, readMetadata decoder chain = .ok payload ∧ payload.Holds blocks := by
  obtain ⟨info, hinfo⟩ := countPass_streamInfo hinfo
  have hpick {α : Type} {kind : Kind} {pick : FlacMetadataBlock → Option α}
      {embed : α → FlacMetadataBlock} {S : StreamMetadata → α → Prop}
      (hpick : Picks kind pick embed)
      (hS : ∀ block value, block.Fits → Shows decoder block (embed value) → S block value) :=
    forall₂_ofKind decoder hpick hS hfits h
  have hcomments := hpick picks_vorbisComment fun _ _ hf hs =>
    newVorbisComment_of_shows decoder hf hs
  obtain ⟨vendor, entries, hread, hcomment⟩ := newVorbisComment_chain decoder hvorbis hcomments
  have hpictures := filledArray_eq
    (hpick picks_picture fun _ _ hf hs => newPicture_of_shows decoder hf hs)
  have happlications := filledArray_eq
    (hpick picks_application fun _ _ hf hs => newApplicationBlock_of_shows decoder hf hs)
  have hseekTables := filledArray_eq
    (hpick picks_seekTable fun _ _ _ hs => newSeekTable_of_shows decoder hs)
  have hcueSheets := filledArray_eq
    (hpick picks_cueSheet fun _ _ _ hs => newCueSheet_of_shows decoder hs)
  have hpaddings := filledArray_eq
    (hpick picks_padding fun _ _ hf hs => newPaddingBlock_of_shows decoder hf hs)
  have hunknowns := filledArray_eq
    (hpick picks_unknown fun _ _ hf hs => newUnknownMetadataBlock_of_shows decoder hf hs)
  have hkinds : (contentBlocks chain).map (switchKind ·.type) =
      (blocks.map (·.kind)).map some := by
    rw [List.map_map]
    exact List.forall₂_eq_eq_eq ▸ List.forall₂_map_left_iff.mpr
      (List.forall₂_map_right_iff.mpr (h.imp fun _ _ hs => hs.kind))
  have hlength : (contentBlocks chain).length = (blocks.map (·.kind)).length := by
    rw [h.length_eq, List.length_map]
  have hcount : (0 : ℕ) + (blocks.map (·.kind)).count .vorbisComment ≤ 1 := by
    rw [← length_ofKind_eq decoder h]
    omega
  have horder := orderPass_eq chain _ hkinds [] [] rfl (fun _ => 0) hcount
  simp only [List.nil_append, List.length_nil] at horder
  have hone : ¬ 1 < (countPass chain).count .vorbisComment := by
    rw [countPass_count]
    omega
  rw [← hlength, ← countPass_ordered] at horder
  refine ⟨⟨newStreamInfo info, vendor, entries, _, _, _, _, _, _,
    (contentBlocks chain).map (·.type), _⟩, ?_,
    hcomment, rfl, rfl, rfl, rfl, rfl, rfl, ?_, rfl⟩
  · rw [readMetadata]
    simp only [hinfo, if_neg hone, hread, hpictures, happlications, hseekTables, hcueSheets,
      hpaddings, hunknowns, horder]
    rfl
  · rw [List.map_map]
    simpa [Function.comp_def] using hkinds

/-! ## Looking the blocks up -/

/-- The typed array of a payload for one kind, as blocks. -/
def NativeMetadataPayload.array (payload : NativeMetadataPayload) : Kind → List FlacMetadataBlock
  | .vorbisComment => payload.vorbisComment.toList.map .vorbisComment
  | .picture => payload.pictures.map .picture
  | .application => payload.applicationBlocks.map .application
  | .seekTable => payload.seekTables.map .seekTable
  | .cueSheet => payload.cueSheets.map .cueSheet
  | .padding => payload.paddingBlocks.map .padding
  | .unknown => payload.unknownBlocks.map .unknown

theorem NativeMetadataPayload.lookup_of_array {payload : NativeMetadataPayload} {type index : ℕ}
    {p : FlacMetadataBlock} (htype : switchKind type = some p.kind)
    (h : (payload.array p.kind)[index]? = some p) : payload.lookup type index = some p := by
  match type with
  | 0 => cases htype
  | 4 =>
    rw [← Option.some.inj htype, NativeMetadataPayload.array, List.getElem?_map] at h
    rw [NativeMetadataPayload.lookup]
    cases hcomment : payload.vorbisComment with
    | none => simp [hcomment] at h
    | some comment =>
      cases index with
      | zero => simpa [hcomment] using h
      | succ index => simp [hcomment] at h
  | 1 | 2 | 3 | 5 | 6 | type + 7 =>
    rw [← Option.some.inj htype, NativeMetadataPayload.array, List.getElem?_map] at h
    exact h

namespace NativeMetadataPayload.Holds

variable {payload : NativeMetadataPayload} {blocks : List FlacMetadataBlock}
  (h : payload.Holds blocks) (hvorbis : (blocks.map (·.kind)).count .vorbisComment ≤ 1)
include h hvorbis

theorem array_eq (kind : Kind) : payload.array kind = blocks.filter (·.kind = kind) := by
  cases kind with
  | vorbisComment =>
    rw [array, h.vorbisComment, ← picks_vorbisComment.map_filterMap]
    rw [← picks_vorbisComment.length_filterMap] at hvorbis
    cases hcomments : blocks.filterMap FlacMetadataBlock.vorbisComment? with
    | nil => rfl
    | cons comment comments =>
      rw [hcomments] at hvorbis
      obtain rfl : comments = [] := List.eq_nil_of_length_eq_zero (by simpa using hvorbis)
      rfl
  | picture => rw [array, h.pictures, picks_picture.map_filterMap]
  | application => rw [array, h.applicationBlocks, picks_application.map_filterMap]
  | seekTable => rw [array, h.seekTables, picks_seekTable.map_filterMap]
  | cueSheet => rw [array, h.cueSheets, picks_cueSheet.map_filterMap]
  | padding => rw [array, h.paddingBlocks, picks_padding.map_filterMap]
  | unknown => rw [array, h.unknownBlocks, picks_unknown.map_filterMap]

/-- Every entry of the order table resolves to the block at its position. -/
theorem lookups : List.Forall₂ (fun entry p => payload.lookup entry.1 entry.2 = some p)
    (payload.metadataBlockTypes.zip payload.metadataBlockIndices) blocks := by
  have htypes : List.Forall₂ (fun type p => switchKind type = some p.kind)
      payload.metadataBlockTypes blocks :=
    List.forall₂_map_left_iff.mp (List.forall₂_map_right_iff.mp
      (List.forall₂_eq_eq_eq ▸ h.types : List.Forall₂ (· = ·) _ _))
  have hranks := getElem?_ranks (·.kind) payload.array blocks (fun _ => 0) fun kind => by
    rw [List.drop_zero, h.array_eq hvorbis]
  rw [← h.indices] at hranks
  exact (forall₂_zip htypes hranks).imp fun _ _ hentry => lookup_of_array hentry.1 hentry.2

theorem toPublicMetadata_blocks : payload.toPublicMetadata.blocks = blocks := by
  have hlookups := h.lookups hvorbis
  show List.filterMap (fun entry : ℕ × ℕ => payload.lookup entry.1 entry.2) _ = _
  generalize payload.metadataBlockTypes.zip payload.metadataBlockIndices = entries at hlookups
  clear h hvorbis
  induction hlookups with
  | nil => rfl
  | cons hentry _ ih => rw [List.filterMap_cons, hentry, ih]

end NativeMetadataPayload.Holds

/-- The grouped lists are the sublists of the blocks of their types. -/
structure FlacMetadata.Grouped (metadata : FlacMetadata) : Prop where
  vorbisComment : metadata.vorbisComment =
    (metadata.blocks.filterMap FlacMetadataBlock.vorbisComment?).head?
  pictures : metadata.pictures = metadata.blocks.filterMap FlacMetadataBlock.picture?
  applicationBlocks : metadata.applicationBlocks =
    metadata.blocks.filterMap FlacMetadataBlock.application?
  seekTables : metadata.seekTables = metadata.blocks.filterMap FlacMetadataBlock.seekTable?
  cueSheets : metadata.cueSheets = metadata.blocks.filterMap FlacMetadataBlock.cueSheet?
  paddingBlocks : metadata.paddingBlocks = metadata.blocks.filterMap FlacMetadataBlock.padding?
  unknownBlocks : metadata.unknownBlocks = metadata.blocks.filterMap FlacMetadataBlock.unknown?

/-- What reading makes of the chain of a FLAC file. -/
structure ReadsAs (chain : List StreamMetadata) (payload : NativeMetadataPayload)
    (blocks : List FlacMetadataBlock) : Prop where
  read : readMetadata decoder chain = .ok payload
  blocks_eq : payload.toPublicMetadata.blocks = blocks
  grouped : payload.toPublicMetadata.Grouped
  lookups : List.Forall₂ (fun entry p => payload.lookup entry.1 entry.2 = some p)
    (payload.metadataBlockTypes.zip payload.metadataBlockIndices) blocks
  length_types : payload.metadataBlockTypes.length = blocks.length
  length_indices : payload.metadataBlockIndices.length = blocks.length

theorem length_ofKind_vorbisComment (chain : List StreamMetadata) :
    (ofKind .vorbisComment chain).length = chain.countP (·.type = 4) := by
  rw [ofKind, ← List.countP_eq_length_filter]
  rfl

/-- A chain is read as the blocks that show its blocks. -/
theorem exists_readsAs {chain : List StreamMetadata}
    (hinfo : ∃ info, StreamMetadata.streamInfo info ∈ chain)
    (hvorbis : chain.countP (·.type = 4) ≤ 1) (hfits : ∀ block ∈ chain, block.Fits)
    {blocks : List FlacMetadataBlock}
    (h : List.Forall₂ (Shows decoder) (contentBlocks chain) blocks) :
    ∃ payload, ReadsAs decoder chain payload blocks := by
  rw [← length_ofKind_vorbisComment] at hvorbis
  obtain ⟨payload, hread, hholds⟩ := readMetadata_holds decoder hinfo hvorbis hfits h
  have hcount : (blocks.map (·.kind)).count .vorbisComment ≤ 1 :=
    (length_ofKind_eq decoder h .vorbisComment).symm.trans_le hvorbis
  have hblocks := hholds.toPublicMetadata_blocks hcount
  refine ⟨payload, hread, hblocks, ?_, hholds.lookups hcount, ?_, ?_⟩
  · constructor
    all_goals rw [hblocks]
    · exact hholds.vorbisComment
    · exact hholds.pictures
    · exact hholds.applicationBlocks
    · exact hholds.seekTables
    · exact hholds.cueSheets
    · exact hholds.paddingBlocks
    · exact hholds.unknownBlocks
  · have := congrArg List.length hholds.types
    simpa using this
  · rw [hholds.indices, length_ranks, List.length_map]

/-! ## Chains with several comment blocks -/

theorem mem_of_countPass_streamInfo {chain : List StreamMetadata} {block : StreamMetadata}
    (h : (countPass chain).streamInfo = some block) : block ∈ chain := by
  induction chain using List.reverseRecOn with
  | nil => cases h
  | append_singleton chain last ih =>
    rw [countPass_append, countStep] at h
    cases hkind : switchKind last.type with
    | none =>
      rw [hkind] at h
      rw [← Option.some.inj h]
      exact List.mem_append_right _ (List.mem_singleton_self _)
    | some k =>
      rw [hkind] at h
      exact List.mem_append_left _ (ih h)

theorem countPass_streamInfo_cases {chain : List StreamMetadata} {block : StreamMetadata}
    (h : (countPass chain).streamInfo = some block) : ∃ info, block = .streamInfo info := by
  induction chain using List.reverseRecOn with
  | nil => cases h
  | append_singleton chain last ih =>
    rw [countPass_append, countStep] at h
    cases hkind : switchKind last.type with
    | none =>
      rw [hkind] at h
      rw [← Option.some.inj h]
      have htype := (switchKind_eq_none last).mp hkind
      cases last with
      | streamInfo info => exact ⟨info, rfl⟩
      | unknown type data => exact absurd type.min_le (by rw [show type.code = 0 from htype]; decide)
      | _ => simp [StreamMetadata.type] at htype
    | some k =>
      rw [hkind] at h
      exact ih h

theorem readMetadata_rejects {chain : List StreamMetadata}
    (hvorbis : 2 ≤ chain.countP (·.type = 4)) :
    ∃ message, readMetadata decoder chain = .error (.flacDecodeException message) := by
  rw [readMetadata]
  cases hinfo : (countPass chain).streamInfo with
  | none => exact ⟨_, rfl⟩
  | some block =>
    obtain ⟨info, rfl⟩ := countPass_streamInfo_cases hinfo
    have hmany : 1 < (countPass chain).count .vorbisComment := by
      rw [countPass_count, length_ofKind_vorbisComment]
      omega
    simp only [if_pos hmany]
    exact ⟨_, rfl⟩

/-- Whatever was read has STREAMINFO and at most one comment block. -/
theorem of_readMetadata {chain : List StreamMetadata} {payload : NativeMetadataPayload}
    (h : readMetadata decoder chain = .ok payload) :
    (∃ info, StreamMetadata.streamInfo info ∈ chain) ∧ chain.countP (·.type = 4) ≤ 1 := by
  constructor
  · rw [readMetadata] at h
    cases hinfo : (countPass chain).streamInfo with
    | none =>
      rw [hinfo] at h
      cases h
    | some block =>
      obtain ⟨info, rfl⟩ := countPass_streamInfo_cases hinfo
      exact ⟨info, mem_of_countPass_streamInfo hinfo⟩
  · by_contra hmany
    have htwo : 2 ≤ chain.countP (·.type = 4) := by omega
    obtain ⟨message, herror⟩ := readMetadata_rejects decoder htwo
    rw [herror] at h
    cases h

theorem exists_forall₂_shows {chain : List StreamMetadata} (hfits : ∀ block ∈ chain, block.Fits) :
    ∃ blocks, List.Forall₂ (Shows decoder) (contentBlocks chain) blocks := by
  refine exists_forall₂ fun block hblock => ?_
  obtain ⟨hmem, htype⟩ := List.mem_filter.mp hblock
  exact exists_shows decoder (hfits block hmem) (by simpa using htype)

/-- The blocks of a chain that was read. -/
theorem readsAs_of_readMetadata {chain : List StreamMetadata} {payload : NativeMetadataPayload}
    (hfits : ∀ block ∈ chain, block.Fits) (h : readMetadata decoder chain = .ok payload) :
    ∃ blocks, List.Forall₂ (Shows decoder) (contentBlocks chain) blocks ∧
      ReadsAs decoder chain payload blocks := by
  obtain ⟨hinfo, hvorbis⟩ := of_readMetadata decoder h
  obtain ⟨blocks, hshows⟩ := exists_forall₂_shows decoder hfits
  obtain ⟨payload', hreads⟩ := exists_readsAs decoder hinfo hvorbis hfits hshows
  obtain rfl : payload = payload' := Except.ok.inj (h.symm.trans hreads.read)
  exact ⟨blocks, hshows, hreads⟩

/-! ## Order and identity of the blocks -/

/-- The STREAMINFO of an empty stereo stream. -/
def emptyStreamInfo : StreamInfo :=
  ⟨44100, 2, 16, 0, 4096, 4096, 0, 0, Vector.replicate 16 0⟩

/-- Two paddings around a seek table with a placeholder, a comment with two values of one key and a
block of a reserved type. -/
def mixedChain : List StreamMetadata :=
  [.streamInfo emptyStreamInfo, .padding 10, .seekTable [⟨4096, 100, 4096⟩, ⟨-1, 0, 0⟩],
    .vorbisComment [] [utf8 ['A', '=', 'b'], utf8 ['B', '=', 'c'], utf8 ['A', '=', 'd']],
    .unknown ⟨7, by decide, by decide⟩ [1, 2], .padding 0]

end JFlac.Metadata
