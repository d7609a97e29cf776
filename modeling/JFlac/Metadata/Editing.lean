import JFlac.Metadata.RoundTrip
import Mathlib

/-!
# Editing metadata

An edit reads the blocks of a file, lets the caller change the list, and writes the whole list back.
The comment block goes through the map of its keys on the way, even when the caller leaves it alone.
-/

namespace JFlac.Metadata

open Lib

variable (decoder : Utf8Decoder) (lib : LibFlacMetadata)

/-- `FlacMetadataEditor.edit`: the chain that is written for an action on the session. -/
def edit (chain : List StreamMetadata)
    (action : FlacMetadata → Except Throwable (List FlacMetadataBlock)) :
    Except Throwable (List StreamMetadata) := do
  let payload ← readMetadata decoder chain
  let mutableBlocks ← action payload.toPublicMetadata
  validateFlacEncodingMetadata (sessionMetadata mutableBlocks)
  writeMetadata lib chain (sessionMetadata mutableBlocks)

/-- The comment blocks of the session are those of the file. -/
def LeavesComment (action : FlacMetadata → Except Throwable (List FlacMetadataBlock)) : Prop :=
  ∀ metadata mutableBlocks, action metadata = .ok mutableBlocks →
    mutableBlocks.filterMap FlacMetadataBlock.vorbisComment? =
      metadata.blocks.filterMap FlacMetadataBlock.vorbisComment?

/-- An entry, with a separator behind it if it has none. -/
def withSeparator (entry : Text) : Text := if '=' ∈ entry then entry else entry ++ ['=']

/-- The same entries up to a missing separator, and those of one key in the same order. -/
structure SameEntries (entries entries' : List Text) : Prop where
  perm : (entries'.map withSeparator).Perm (entries.map withSeparator)
  order : ∀ key, (entries'.map withSeparator).filter (keyOf · = key) =
    (entries.map withSeparator).filter (keyOf · = key)

/-! ## Grouping and flattening -/

theorem map_withSeparator {entries : List Text} (h : ∀ entry ∈ entries, '=' ∈ entry) :
    entries.map withSeparator = entries := by
  refine (List.map_congr_left fun entry hentry => ?_).trans (List.map_id entries)
  exact if_pos (h entry hentry)

/-- Grouping and flattening keeps the entries exactly when each has a key. -/
theorem sameEntries_iff (entries : List Text) :
    SameEntries entries (flattenGroups (groupEntries entries)) ↔ ∀ entry ∈ entries, HasKey entry := by
  have hperm := flattenGroups_groupEntries_perm entries
  constructor
  · intro h entry hentry
    have hlength := h.perm.length_eq
    rw [List.length_map, List.length_map, hperm.length_eq] at hlength
    have hfilter := List.length_filter_eq_length_iff.mp hlength
    exact of_decide_eq_true (hfilter entry hentry)
  · intro h
    have hall : entries.filter (HasKey ·) = entries :=
      List.filter_eq_self.mpr fun entry hentry => decide_eq_true (h entry hentry)
    rw [hall] at hperm
    have hsep := map_withSeparator fun entry hentry => (h entry hentry).1
    have hflat : (flattenGroups (groupEntries entries)).map withSeparator =
        flattenGroups (groupEntries entries) :=
      map_withSeparator fun entry hentry => (h entry (hperm.mem_iff.mp hentry)).1
    refine ⟨?_, fun key => ?_⟩
    · rw [hsep, hflat]
      exact hperm
    · rw [hsep, hflat, filter_flattenGroups_groupEntries, hall]

/-! ## What is built for an accepted block -/

/-- The entries that were appended. -/
theorem of_appendComments {entries : List Text} {bytes : List (List UInt8)}
    (h : ∀ entry ∈ entries, '=' ∈ entry ∧ nul ∉ entry ∧ (utf8 entry).length ≤ uint32Max)
    (hok : appendComments lib entries = .ok bytes) : bytes = entries.map utf8 := by
  induction entries generalizing bytes with
  | nil => exact (Except.ok.inj hok).symm
  | cons entry entries ih =>
    obtain ⟨⟨hsep, hnul, hlength⟩, hrest⟩ := List.forall_mem_cons.mp h
    rw [appendComments, normalisedEntry_eq hsep hnul hlength] at hok
    simp only [bind, Except.bind] at hok
    split at hok
    · cases happend : appendComments lib entries with
      | error e =>
        rw [happend] at hok
        cases hok
      | ok rest =>
        rw [happend] at hok
        rw [← Except.ok.inj hok, ih hrest happend, List.map_cons]
    · cases hok

/-- A built block keeps the kind, and a comment block its flattened entries. -/
theorem of_buildBlock {p : FlacMetadataBlock} {native : Option StreamMetadata}
    (hvalid : validateMetadataBlock p = .ok ()) (h : buildBlock lib p = .ok native) :
    ∃ block, native = some block ∧ switchKind block.type = some p.kind ∧
      ∀ c, p = .vorbisComment c → ∃ vendor,
        block = .vorbisComment vendor ((flattenGroups c.comments.entries).map utf8) := by
  cases p with
  | vorbisComment c =>
    rw [buildBlock, buildVorbisCommentBlock, if_neg (by simp)] at h
    split at h
    · obtain ⟨bytes, happend, hnative⟩ := bind_eq_ok_iff.mp h
      rw [of_appendComments lib (entries_of_valid hvalid) happend] at hnative
      refine ⟨_, (Except.ok.inj hnative).symm, rfl, ?_⟩
      rintro _ ⟨⟩
      exact ⟨_, rfl⟩
    · cases h
  | picture q => exact ⟨_, (Except.ok.inj h).symm, rfl, by simp⟩
  | application a => exact ⟨_, (Except.ok.inj h).symm, rfl, by simp⟩
  | seekTable t =>
    rw [buildBlock, buildSeekTableBlock] at h
    split at h
    · exact ⟨_, (Except.ok.inj h).symm, rfl, by simp⟩
    · cases h
  | cueSheet c =>
    rw [buildBlock, buildCueSheetBlock] at h
    cases hfill : fillCueSheet c with
    | error e =>
      rw [hfill] at h
      cases h
    | ok sheet =>
      rw [hfill] at h
      cases hviolation : lib.cueSheetViolation sheet c.isCd with
      | some violation => simp [bind, Except.bind, hviolation, Except.map] at h
      | none =>
        simp only [bind, Except.bind, hviolation, Except.map] at h
        exact ⟨_, (Except.ok.inj h).symm, rfl, by simp⟩
  | padding q =>
    rw [buildBlock, buildPaddingBlock] at h
    split at h
    · cases h
    · exact ⟨_, (Except.ok.inj h).symm, rfl, by simp⟩
  | unknown u =>
    rw [buildBlock, buildUnknownMetadataBlock] at h
    split at h
    · cases h
    · split at h
      · cases h
      · exact ⟨_, (Except.ok.inj h).symm, switchKind_unknown _, by simp⟩

/-- A native block that stands for a block of the session. -/
def WrittenFor (native : StreamMetadata) (p : FlacMetadataBlock) : Prop :=
  switchKind native.type = some p.kind ∧ ∀ c, p = .vorbisComment c → ∃ vendor,
    native = .vorbisComment vendor ((flattenGroups c.comments.entries).map utf8)

/-- The blocks of the ordered mode, one for each block of the session. -/
theorem of_buildOrderedMetadataBlocks {blocks : List FlacMetadataBlock}
    {natives : List (Option StreamMetadata)}
    (hvalid : ∀ p ∈ blocks, validateMetadataBlock p = .ok ())
    (h : buildOrderedMetadataBlocks lib blocks = .ok natives) :
    List.Forall₂ WrittenFor natives.reduceOption blocks := by
  induction blocks generalizing natives with
  | nil =>
    rw [← Except.ok.inj h]
    exact List.Forall₂.nil
  | cons p blocks ih =>
    obtain ⟨hp, hrest⟩ := List.forall_mem_cons.mp hvalid
    rw [buildOrderedMetadataBlocks] at h
    obtain ⟨native, hnative, h⟩ := bind_eq_ok_iff.mp h
    obtain ⟨rest, hblocks, h⟩ := bind_eq_ok_iff.mp h
    rw [buildOrderedMetadataBlock] at hnative
    obtain ⟨built, hbuild, hensure⟩ := bind_eq_ok_iff.mp hnative
    obtain ⟨block, rfl, hkind, hcomment⟩ := of_buildBlock lib hp hbuild
    rw [ensureMetadataBlockLengthFits] at hensure
    split at hensure
    · cases hensure
    · rw [← Except.ok.inj h, ← Except.ok.inj hensure, List.reduceOption_cons_of_some]
      exact (ih hrest hblocks).cons ⟨hkind, hcomment⟩

/-! ## The comment block of an edit -/

/-- The public comment of the only comment block of a chain. -/
theorem vorbisComments_of_chain {chain : List StreamMetadata} {blocks : List FlacMetadataBlock}
    (hfits : ∀ block ∈ chain, block.Fits)
    (hshows : List.Forall₂ (Shows decoder) (contentBlocks chain) blocks)
    (hone : chain.countP (·.type = 4) ≤ 1) {vendor : List UInt8} {entries : List Text}
    (hmem : StreamMetadata.vorbisComment vendor (entries.map utf8) ∈ chain) :
    blocks.filterMap FlacMetadataBlock.vorbisComment? =
      [⟨decoder.decode vendor, commentMap entries⟩] := by
  have hall := forall₂_ofKind decoder picks_vorbisComment
    (S := fun block c => Shows decoder block (.vorbisComment c)) (fun _ _ _ hs => hs) hfits hshows
  have hkind : StreamMetadata.vorbisComment vendor (entries.map utf8) ∈
      ofKind .vorbisComment chain := List.mem_filter.mpr ⟨hmem, rfl⟩
  rw [← length_ofKind_vorbisComment] at hone
  generalize ofKind .vorbisComment chain = natives at hall hkind hone
  generalize blocks.filterMap FlacMetadataBlock.vorbisComment? = comments at hall
  cases hall with
  | nil => cases hkind
  | cons hfirst hrest =>
    rename_i native c natives comments
    obtain rfl : natives = [] := List.eq_nil_of_length_eq_zero (by simpa using hone)
    cases hrest
    rw [← List.mem_singleton.mp hkind, shows_vorbisComment,
      map_map_eq_self fun entry _ => decoder.decode_utf8 entry] at hfirst
    rw [hfirst]

/-- The comment block of the blocks that are written for a session with one comment. -/
theorem comment_of_written {natives : List StreamMetadata} {blocks : List FlacMetadataBlock}
    (hall : List.Forall₂ WrittenFor natives blocks) {c : FlacVorbisComment}
    (hcomment : blocks.filterMap FlacMetadataBlock.vorbisComment? = [c]) :
    ∃ vendor, natives.filter (·.type = 4) =
      [.vorbisComment vendor ((flattenGroups c.comments.entries).map utf8)] := by
  have hpicked : List.Forall₂ (fun native c => ∃ vendor,
      native = .vorbisComment vendor ((flattenGroups c.comments.entries).map utf8))
      (natives.filter (·.type = 4)) (blocks.filterMap FlacMetadataBlock.vorbisComment?) := by
    refine forall₂_filterMap (fun native p hp => ?_) hall
    have hpick := picks_vorbisComment p
    have hfills : fills .vorbisComment native.type = true ↔ p.kind = .vorbisComment := by
      rw [fills_iff, hp.1, Option.some_inj]
    have hkind : decide (native.type = 4) = true ↔ p.kind = .vorbisComment := by
      rw [← hfills, decide_eq_true_iff]
      exact beq_iff_eq.symm
    by_cases hk : p.kind = .vorbisComment
    · rw [if_pos hk] at hpick
      obtain ⟨value, rfl, hvalue⟩ := hpick
      rw [if_pos (hkind.mpr hk)]
      exact ⟨value, hvalue, hp.2 value rfl⟩
    · rw [if_neg hk] at hpick
      rw [if_neg (mt hkind.mp hk)]
      exact hpick
  rw [hcomment] at hpicked
  generalize natives.filter (·.type = 4) = picked at hpicked
  cases hpicked with
  | cons hfirst hrest =>
    cases hrest
    obtain ⟨vendor, rfl⟩ := hfirst
    exact ⟨vendor, rfl⟩

/-- What a successful edit that leaves the comment block alone writes for it. -/
theorem edit_comment {chain written : List StreamMetadata}
    {action : FlacMetadata → Except Throwable (List FlacMetadataBlock)}
    (hfits : ∀ block ∈ chain, block.Fits) (haction : LeavesComment action)
    {vendor : List UInt8} {entries : List Text}
    (hmem : StreamMetadata.vorbisComment vendor (entries.map utf8) ∈ chain)
    (hedit : edit decoder lib chain action = .ok written) :
    ∃ vendor', written.filter (·.type = 4) =
      [.vorbisComment vendor' ((flattenGroups (groupEntries entries)).map utf8)] := by
  obtain ⟨payload, hread, hedit⟩ := bind_eq_ok_iff.mp hedit
  obtain ⟨mutableBlocks, hblocks, hedit⟩ := bind_eq_ok_iff.mp hedit
  obtain ⟨⟨⟩, hvalid, hwrite⟩ := bind_eq_ok_iff.mp hedit
  obtain ⟨blocks, hshows, hreads⟩ := readsAs_of_readMetadata decoder hfits hread
  have hcomment := vorbisComments_of_chain decoder hfits hshows (of_readMetadata decoder hread).2 hmem
  have hsession := haction _ _ hblocks
  rw [hreads.blocks_eq, hcomment] at hsession
  have hne : (sessionMetadata mutableBlocks).blocks ≠ [] := by
    rintro hnil
    rw [show mutableBlocks = [] from hnil] at hsession
    cases hsession
  rw [validateFlacEncodingMetadata, if_pos hne] at hvalid
  simp only [validateOrderedMetadataBlocks, bind_eq_ok, require_eq_ok, forEach_eq_ok] at hvalid
  rw [writeMetadata.eq_def] at hwrite
  split at hwrite
  · rw [buildBlocks, if_pos hne] at hwrite
    split at hwrite
    · rename_i natives hbuild
      have hall := of_buildOrderedMetadataBlocks lib hvalid.2.2 hbuild
      obtain ⟨vendor', hfilter⟩ := comment_of_written hall hsession
      rw [← Except.ok.inj hwrite, List.filter_cons_of_neg (by simp [StreamMetadata.type]), hfilter]
      exact ⟨vendor', rfl⟩
    · cases hwrite
    · cases hwrite
  · cases hwrite

theorem utf8_injective (decoder : Utf8Decoder) {texts texts' : List Text}
    (h : texts.map utf8 = texts'.map utf8) : texts = texts' := by
  have hdecode (xs : List Text) : (xs.map utf8).map decoder.decode = xs :=
    map_map_eq_self fun text _ => decoder.decode_utf8 text
  rw [← hdecode texts, h, hdecode]

/-- A successful edit that leaves the comment block alone keeps its entries exactly when each of them
has a key: entries without a separator, or with nothing before it, are lost. -/
theorem edit_keepsEntries_iff {chain written : List StreamMetadata}
    {action : FlacMetadata → Except Throwable (List FlacMetadataBlock)}
    (hfits : ∀ block ∈ chain, block.Fits) (haction : LeavesComment action)
    {vendor : List UInt8} {entries : List Text}
    (hmem : StreamMetadata.vorbisComment vendor (entries.map utf8) ∈ chain)
    (hedit : edit decoder lib chain action = .ok written) :
    (∃ vendor' entries', written.filter (·.type = 4) =
        [.vorbisComment vendor' (entries'.map utf8)] ∧ SameEntries entries entries') ↔
      ∀ entry ∈ entries, HasKey entry := by
  obtain ⟨vendor', hwritten⟩ := edit_comment decoder lib hfits haction hmem hedit
  rw [← sameEntries_iff, hwritten]
  constructor
  · rintro ⟨_, entries', heq, hsame⟩
    obtain ⟨rfl, hentries⟩ := StreamMetadata.vorbisComment.inj (List.singleton_inj.mp heq)
    rwa [utf8_injective decoder hentries]
  · exact fun hsame => ⟨vendor', _, rfl, hsame⟩

/-- An edit that changes nothing. -/
def keepBlocks (metadata : FlacMetadata) : Except Throwable (List FlacMetadataBlock) :=
  .ok metadata.blocks

theorem leavesComment_keepBlocks : LeavesComment keepBlocks := by
  rintro metadata _ ⟨⟩
  rfl

/-- A file with one comment block. -/
def commentChain (entries : List Text) : List StreamMetadata :=
  [.streamInfo emptyStreamInfo, .vorbisComment [] (entries.map utf8), .padding 4]

theorem edit_keepsEntries_tagged :
    ∃ written, edit replacingDecoder permissiveLibFlac
        (commentChain ["A=b".toList, "B=".toList, "A=c".toList]) keepBlocks = .ok written ∧
      ∃ vendor' entries', written.filter (·.type = 4) = [.vorbisComment vendor' (entries'.map utf8)] ∧
        SameEntries ["A=b".toList, "B=".toList, "A=c".toList] entries' := by
  have hedit : edit replacingDecoder permissiveLibFlac
      (commentChain ["A=b".toList, "B=".toList, "A=c".toList]) keepBlocks =
        .ok (commentChain ["A=b".toList, "A=c".toList, "B=".toList]) := by decide +kernel
  have hfits : ∀ block ∈ commentChain ["A=b".toList, "B=".toList, "A=c".toList], block.Fits := by
    intro block hblock
    simp only [commentChain, List.mem_cons, List.not_mem_nil, or_false] at hblock
    rcases hblock with rfl | rfl | rfl <;> exact ⟨by decide, nofun⟩
  refine ⟨_, hedit, ?_⟩
  exact (edit_keepsEntries_iff replacingDecoder permissiveLibFlac hfits leavesComment_keepBlocks
    (List.mem_cons_of_mem _ List.mem_cons_self) hedit).mpr (by decide)

/-- An edit that changes nothing loses `KEY` and `=x`. -/
theorem edit_losesEntries : LeavesComment keepBlocks ∧
    ∃ written, edit replacingDecoder permissiveLibFlac
        (commentChain ["KEY".toList, "A=b".toList, "=x".toList]) keepBlocks = .ok written ∧
      ¬ ∃ vendor' entries', written.filter (·.type = 4) =
          [.vorbisComment vendor' (entries'.map utf8)] ∧
        SameEntries ["KEY".toList, "A=b".toList, "=x".toList] entries' := by
  have hedit : edit replacingDecoder permissiveLibFlac
      (commentChain ["KEY".toList, "A=b".toList, "=x".toList]) keepBlocks =
        .ok (commentChain ["A=b".toList]) := by decide +kernel
  refine ⟨leavesComment_keepBlocks, _, hedit, ?_⟩
  rintro ⟨vendor', entries', hwritten, hsame⟩
  have hentries := (StreamMetadata.vorbisComment.inj (List.singleton_inj.mp hwritten)).2
  have hlength := hsame.perm.length_eq
  rw [← utf8_injective replacingDecoder hentries] at hlength
  exact absurd hlength (by decide)

end JFlac.Metadata
