import JFlac.Lib.Checks
import JFlac.Metadata.ChainEdit

/-!
# The blocks that an edit writes

A request names its blocks one by one or grouped by their kind. The chain that is written holds one
native block for each of them, in their order.
-/

namespace JFlac.Metadata

open Lib

variable {lib : LibFlacMetadata}

/-! ## Requested blocks -/

/-- A block that a request names. The grouped comments bring no vendor string of their own. -/
inductive Requested where
  | comments (entries : List Text)
  | block (model : FlacMetadataBlock)

/-- The builder of a requested block. -/
def Requested.build (lib : LibFlacMetadata) : Requested → Build (Option StreamMetadata)
  | .comments entries => buildVorbisCommentBlock lib none entries false
  | .block model => buildBlock lib model

/-- A native block that was built for a requested block and fits the 24-bit length field. -/
def Requested.BuiltAs (lib : LibFlacMetadata) (requested : Requested) (native : StreamMetadata) :
    Prop :=
  requested.build lib = .ok (some native) ∧ native.length ≤ maxBlockLength

/-- The comment block of a grouped request. -/
def requestedComments (metadata : FlacEncodingMetadata) : List Requested :=
  if flattenGroups metadata.comments.entries = [] then []
  else [.comments (flattenGroups metadata.comments.entries)]

/-- The blocks of a request in their order: its list, or else one kind of the grouped fields after
the other. -/
def requestedBlocks (metadata : FlacEncodingMetadata) : List Requested :=
  if metadata.blocks ≠ [] then metadata.blocks.map .block
  else
    requestedComments metadata ++ (metadata.pictures.map .picture).map .block ++
      (metadata.applicationBlocks.map .application).map .block ++
      (metadata.seekTables.map .seekTable).map .block ++
      (metadata.cueSheets.map .cueSheet).map .block ++
      (metadata.paddingBlocks.map .padding).map .block ++
      (metadata.unknownBlocks.map .unknown).map .block

/-! ## Built blocks -/

variable (lib) in
/-- What stands in a list of built blocks for a requested block: nothing, or its native block. -/
def BuiltOrNull (requested : Requested) (built : Option StreamMetadata) : Prop :=
  ∀ native, built = some native → requested.BuiltAs lib native

/-- A length check that passes keeps the block. -/
theorem of_ensureMetadataBlockLengthFits {built : Option StreamMetadata} {native : StreamMetadata}
    (h : ensureMetadataBlockLengthFits built = .ok (some native)) :
    built = some native ∧ native.length ≤ maxBlockLength := by
  cases built with
  | none => cases h
  | some block =>
    rw [ensureMetadataBlockLengthFits] at h
    split at h
    · cases h
    · rename_i hfits
      obtain rfl : block = native := Option.some.inj (Except.ok.inj h)
      exact ⟨rfl, Nat.le_of_not_lt hfits⟩

/-- A builder followed by the length check. -/
theorem builtOrNull_of_ensured {requested : Requested} {built : Option StreamMetadata}
    (h : requested.build lib >>= ensureMetadataBlockLengthFits = .ok built) :
    BuiltOrNull lib requested built := by
  rintro native rfl
  obtain ⟨block, hbuild, hensure⟩ := bind_eq_ok_iff.mp h
  obtain ⟨rfl, hfits⟩ := of_ensureMetadataBlockLengthFits hensure
  exact ⟨hbuild, hfits⟩

/-- The blocks of a list are built one by one. -/
theorem built_of_ordered {blocks : List FlacMetadataBlock} {natives : List (Option StreamMetadata)}
    (h : buildOrderedMetadataBlocks lib blocks = .ok natives) :
    List.Forall₂ (BuiltOrNull lib) (blocks.map .block) natives := by
  induction blocks generalizing natives with
  | nil =>
    rw [← Except.ok.inj h]
    exact List.Forall₂.nil
  | cons block blocks ih =>
    rw [buildOrderedMetadataBlocks] at h
    obtain ⟨built, hbuilt, h⟩ := bind_eq_ok_iff.mp h
    obtain ⟨rest, hrest, h⟩ := bind_eq_ok_iff.mp h
    rw [← Except.ok.inj h, List.map_cons]
    exact (ih hrest).cons (builtOrNull_of_ensured hbuilt)

theorem built_of_comments {metadata : FlacEncodingMetadata}
    {natives : List (Option StreamMetadata)}
    (h : buildGroupedComments lib (flattenGroups metadata.comments.entries) = .ok natives) :
    List.Forall₂ (BuiltOrNull lib) (requestedComments metadata) natives := by
  unfold buildGroupedComments at h
  unfold requestedComments
  split at h
  · rename_i hempty
    rw [if_pos hempty, ← Except.ok.inj h]
    exact List.Forall₂.nil
  · rename_i hentries
    obtain ⟨built, hbuilt, h⟩ := bind_eq_ok_iff.mp h
    obtain ⟨ensured, hensured, h⟩ := bind_eq_ok_iff.mp h
    rw [if_neg hentries, ← Except.ok.inj h]
    refine List.Forall₂.nil.cons (builtOrNull_of_ensured ?_)
    show buildVorbisCommentBlock lib none _ false >>= _ = _
    rw [hbuilt]
    exact hensured

/-- Both kinds of a request build its blocks in their order. -/
theorem built_of_request {metadata : FlacEncodingMetadata}
    {natives : List (Option StreamMetadata)} (h : buildBlocks lib metadata = .ok natives) :
    List.Forall₂ (BuiltOrNull lib) (requestedBlocks metadata) natives := by
  unfold buildBlocks at h
  unfold requestedBlocks
  split at h
  · rename_i hordered
    rw [if_pos hordered]
    exact built_of_ordered h
  · rename_i hgrouped
    rw [if_neg hgrouped]
    unfold buildMetadataBlocks at h
    split at h
    · cases h
    · obtain ⟨comments, hcomments, h⟩ := bind_eq_ok_iff.mp h
      obtain ⟨pictures, hpictures, h⟩ := bind_eq_ok_iff.mp h
      obtain ⟨applications, happlications, h⟩ := bind_eq_ok_iff.mp h
      obtain ⟨seekTables, hseekTables, h⟩ := bind_eq_ok_iff.mp h
      obtain ⟨cueSheets, hcueSheets, h⟩ := bind_eq_ok_iff.mp h
      obtain ⟨paddings, hpaddings, h⟩ := bind_eq_ok_iff.mp h
      obtain ⟨unknowns, hunknowns, h⟩ := bind_eq_ok_iff.mp h
      rw [← Except.ok.inj h]
      have hpart := @List.rel_append _ _ (BuiltOrNull lib)
      refine hpart (hpart (hpart (hpart (hpart (hpart ?_ ?_) ?_) ?_) ?_) ?_) ?_
      · exact built_of_comments hcomments
      · exact built_of_ordered hpictures
      · exact built_of_ordered happlications
      · exact built_of_ordered hseekTables
      · exact built_of_ordered hcueSheets
      · exact built_of_ordered hpaddings
      · exact built_of_ordered hunknowns

/-- Where no built block is null, each is that of its requested block. -/
theorem builtAs_of_request {metadata : FlacEncodingMetadata} {natives : List StreamMetadata}
    (h : buildBlocks lib metadata = .ok (natives.map some)) :
    List.Forall₂ (Requested.BuiltAs lib) (requestedBlocks metadata) natives := by
  have hall := List.forall₂_map_right_iff.mp (built_of_request h)
  exact hall.imp fun requested native hbuilt => hbuilt native rfl

/-! ## The edit -/

namespace Native

/-- The blocks with a number below `count`, each once. -/
theorem owners_of_perm {ids : List ℕ} {count : ℕ} (h : ids.Perm (List.range count)) :
    ids.Nodup ∧ ∀ id, id ∈ ids ↔ id < count :=
  ⟨h.nodup_iff.mpr List.nodup_range, fun _ => h.mem_iff.trans List.mem_range⟩

/-- A metadata edit either does not write and ends with an exception, or it writes STREAMINFO and one
native block for each requested block in order, the write being the only step that can have failed.
Each block that was built is in the chain or was deleted, and not both. -/
theorem writeMetadata_writesRequested (faults : Faults) (lib : LibFlacMetadata) (path : Text)
    (info : StreamInfo) (rest : List StreamMetadata) (metadata : FlacEncodingMetadata) :
    let edited := writeMetadata faults lib path (.streamInfo info :: rest) metadata
    (edited.context.writes = [] ∧ edited.context.pending.isSome ∨
      ∃ natives, List.Forall₂ (Requested.BuiltAs lib) (requestedBlocks metadata) natives ∧
        edited.context.writes = [(.streamInfo info :: natives).map some] ∧
        ∀ step, (step, false) ∈ edited.context.trace → step = .native .chainWrite true) ∧
    (builtIds edited.chain ++ edited.context.deleted).Nodup ∧
    ∀ id, id ∈ builtIds edited.chain ++ edited.context.deleted ↔
      id < edited.context.created.length := by
  intro edited
  rcases writeMetadata_spec faults lib path info rest metadata with
    haborted | ⟨natives, hnatives, hreplaced⟩
  · exact ⟨.inl ⟨haborted.writes, haborted.pending⟩, owners_of_perm haborted.custody⟩
  · exact ⟨.inr ⟨natives, builtAs_of_request hnatives, hreplaced.writes, hreplaced.clean⟩,
      owners_of_perm hreplaced.custody⟩

end Native

end JFlac.Metadata
