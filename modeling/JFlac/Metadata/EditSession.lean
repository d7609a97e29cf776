import JFlac.Metadata.Editing

/-!
# Edit sessions

A `FlacMetadataEditSession` collects edits of the block list of a file before they are written. The
edits look for the comment block by position and take its vendor from wherever one is left, so what
a session holds depends on its whole history. `blocksAfter` says it in closed form.
-/

namespace JFlac.Metadata

namespace FlacMetadataBlock

/-- `block is FlacMetadataBlock.VorbisComment`. -/
def isVorbisComment : FlacMetadataBlock → Bool
  | .vorbisComment _ => true
  | _ => false

/-- `block is FlacMetadataBlock.Picture`. -/
def isPicture : FlacMetadataBlock → Bool
  | .picture _ => true
  | _ => false

end FlacMetadataBlock

/-! ## The session -/

/-- `FlacMetadataEditSession`. -/
structure FlacMetadataEditSession where
  originalMetadata : FlacMetadata
  mutableBlocks : List FlacMetadataBlock
  deriving DecidableEq, Repr

namespace FlacMetadataEditSession

/-- The constructor. -/
def new (originalMetadata : FlacMetadata) : FlacMetadataEditSession :=
  ⟨originalMetadata, originalMetadata.blocks⟩

variable (s : FlacMetadataEditSession)

/-- `removeVorbisComments`. -/
def removeVorbisComments : FlacMetadataEditSession :=
  { s with mutableBlocks := s.mutableBlocks.filter (!·.isVorbisComment) }

/-- The vendor of the comment block at an index. -/
def vendorAt (existingIndex : ℕ) : Text :=
  (s.mutableBlocks[existingIndex]?.bind FlacMetadataBlock.vorbisComment?).elim [] (·.vendor)

/-- `setVorbisComments`. -/
def setVorbisComments (comments : CommentMap) : FlacMetadataEditSession :=
  if comments.entries = [] then s.removeVorbisComments
  else
    match s.mutableBlocks.findIdx? (·.isVorbisComment) with
    | some existingIndex =>
      { s with
        mutableBlocks := s.mutableBlocks.set existingIndex
          (.vorbisComment ⟨s.vendorAt existingIndex, comments⟩) }
    | none =>
      { s with
        mutableBlocks :=
          .vorbisComment ⟨s.originalMetadata.vorbisComment.elim [] (·.vendor), comments⟩ ::
            s.mutableBlocks }

/-- `removePictures`. -/
def removePictures : FlacMetadataEditSession :=
  { s with mutableBlocks := s.mutableBlocks.filter (!·.isPicture) }

/-- `addPicture`. -/
def addPicture (picture : FlacPicture) : FlacMetadataEditSession :=
  { s with mutableBlocks := s.mutableBlocks ++ [.picture picture] }

end FlacMetadataEditSession

/-- The edits that name a kind of block. -/
inductive SessionEdit where
  | setVorbisComments (comments : CommentMap)
  | removeVorbisComments
  | removePictures
  | addPicture (picture : FlacPicture)
  deriving DecidableEq, Repr

namespace SessionEdit

/-- One edit of a session. -/
def apply (s : FlacMetadataEditSession) : SessionEdit → FlacMetadataEditSession
  | .setVorbisComments comments => s.setVorbisComments comments
  | .removeVorbisComments => s.removeVorbisComments
  | .removePictures => s.removePictures
  | .addPicture picture => s.addPicture picture

/-- What an edit does to the comments, if it names them: a set of an empty map is a removal. -/
def comments? : SessionEdit → Option (Option CommentMap)
  | .setVorbisComments comments => some (if comments.entries = [] then none else some comments)
  | .removeVorbisComments => some none
  | .removePictures | .addPicture _ => none

end SessionEdit

/-- The blocks of a session after some edits. -/
def editedBlocks (original : FlacMetadata) (edits : List SessionEdit) : List FlacMetadataBlock :=
  (edits.foldl SessionEdit.apply (.new original)).mutableBlocks

/-! ## What the history says -/

/-- What the last edit of the comments left, if there was one. -/
def lastComments (edits : List SessionEdit) : Option (Option CommentMap) :=
  (edits.filterMap SessionEdit.comments?).getLast?

/-- Some edit removed the comments. -/
def commentsRemoved (edits : List SessionEdit) : Bool :=
  edits.any (·.comments? == some none)

/-- Some edit removed the pictures. -/
def picturesRemoved (edits : List SessionEdit) : Bool :=
  edits.any (· == .removePictures)

/-- The pictures added since the last removal. -/
def addedPictures (edits : List SessionEdit) : List FlacPicture :=
  edits.foldl (fun added edit =>
    match edit with
    | .addPicture picture => added ++ [picture]
    | .removePictures => []
    | _ => added) []

/-- The comment of a session: its map is that of the last edit, its vendor the original one. -/
def currentComment (original : FlacMetadata) (edits : List SessionEdit) :
    Option FlacVorbisComment :=
  match lastComments edits with
  | none => original.vorbisComment
  | some none => none
  | some (some comments) => some ⟨original.vorbisComment.elim [] (·.vendor), comments⟩

/-- The original comment block was never removed. -/
def staysInPlace (original : FlacMetadata) (edits : List SessionEdit) : Bool :=
  original.vorbisComment.isSome && !commentsRemoved edits

/-- The original blocks that the removal of pictures has left. -/
def keptBlocks (original : FlacMetadata) (edits : List SessionEdit) : List FlacMetadataBlock :=
  if picturesRemoved edits then original.blocks.filter (!·.isPicture) else original.blocks

/-- A block with the given comment if it is a comment block. -/
def withComment (comment : FlacVorbisComment) (block : FlacMetadataBlock) : FlacMetadataBlock :=
  if block.isVorbisComment then .vorbisComment comment else block

/-- The original blocks with the current comment: in its place, or in front of the others. -/
def commentedBlocks (original : FlacMetadata) (edits : List SessionEdit) :
    List FlacMetadataBlock :=
  match staysInPlace original edits, currentComment original edits with
  | true, some comment => (keptBlocks original edits).map (withComment comment)
  | _, comment =>
    comment.toList.map .vorbisComment ++ (keptBlocks original edits).filter (!·.isVorbisComment)

/-- The blocks of a session, from its history. -/
def blocksAfter (original : FlacMetadata) (edits : List SessionEdit) : List FlacMetadataBlock :=
  commentedBlocks original edits ++ (addedPictures edits).map .picture

/-- Metadata as a file gives it: at most one comment block, which is the comment. -/
structure FlacMetadata.FromFile (original : FlacMetadata) : Prop where
  single : (original.blocks.filterMap FlacMetadataBlock.vorbisComment?).length ≤ 1
  comment : original.vorbisComment =
    (original.blocks.filterMap FlacMetadataBlock.vorbisComment?).head?

/-- Reading a chain with at most one comment block gives such metadata. -/
theorem ReadsAs.fromFile {decoder : Utf8Decoder} {chain : List StreamMetadata}
    {payload : NativeMetadataPayload} {blocks : List FlacMetadataBlock}
    (h : ReadsAs decoder chain payload blocks)
    (hone : (blocks.filterMap FlacMetadataBlock.vorbisComment?).length ≤ 1) :
    payload.toPublicMetadata.FromFile where
  single := by rwa [h.blocks_eq]
  comment := h.grouped.vorbisComment

/-! ## Histories that grow -/

section History

variable (original : FlacMetadata) (edits : List SessionEdit) (edit : SessionEdit)

theorem editedBlocks_snoc :
    editedBlocks original (edits ++ [edit]) =
      (edit.apply (edits.foldl SessionEdit.apply (.new original))).mutableBlocks := by
  rw [editedBlocks, List.foldl_append, List.foldl_cons, List.foldl_nil]

theorem lastComments_snoc :
    lastComments (edits ++ [edit]) = edit.comments?.or (lastComments edits) := by
  rw [lastComments, List.filterMap_append, List.getLast?_append]
  cases hedit : edit.comments? with
  | none => simp [hedit, lastComments]
  | some comments => simp [hedit]

theorem commentsRemoved_snoc :
    commentsRemoved (edits ++ [edit]) = (commentsRemoved edits || edit.comments? == some none) := by
  simp [commentsRemoved]

theorem picturesRemoved_snoc :
    picturesRemoved (edits ++ [edit]) = (picturesRemoved edits || edit == .removePictures) := by
  simp [picturesRemoved]

theorem addedPictures_snoc :
    addedPictures (edits ++ [edit]) =
      match edit with
      | .addPicture picture => addedPictures edits ++ [picture]
      | .removePictures => []
      | _ => addedPictures edits := by
  rw [addedPictures, List.foldl_append, List.foldl_cons, List.foldl_nil]
  rfl

end History

/-! ## Lists with at most one comment block -/

section Blocks

open FlacMetadataBlock

theorem vorbisComment?_eq_none {block : FlacMetadataBlock} :
    block.vorbisComment? = none ↔ block.isVorbisComment = false := by
  cases block <;> simp [vorbisComment?, isVorbisComment]

theorem eq_of_vorbisComment?_eq_some {block : FlacMetadataBlock} {comment : FlacVorbisComment}
    (h : block.vorbisComment? = some comment) : block = .vorbisComment comment := by
  cases block <;> cases h
  rfl

theorem withComment_of_not {block : FlacMetadataBlock} (comment : FlacVorbisComment)
    (h : block.isVorbisComment = false) : withComment comment block = block := by
  rw [withComment, h, if_neg Bool.false_ne_true]

@[simp] theorem isVorbisComment_withComment (comment : FlacVorbisComment)
    (block : FlacMetadataBlock) :
    (withComment comment block).isVorbisComment = block.isVorbisComment := by
  rw [withComment]
  split
  · rename_i h
    exact h.symm
  · rfl

@[simp] theorem isPicture_withComment (comment : FlacVorbisComment) (block : FlacMetadataBlock) :
    (withComment comment block).isPicture = block.isPicture := by
  cases block <;> rfl

@[simp] theorem withComment_withComment (comment comment' : FlacVorbisComment)
    (block : FlacMetadataBlock) :
    withComment comment' (withComment comment block) = withComment comment' block := by
  cases block <;> rfl

theorem vorbisComment?_withComment (comment : FlacVorbisComment) (block : FlacMetadataBlock) :
    (withComment comment block).vorbisComment? = block.vorbisComment?.map fun _ => comment := by
  cases block <;> rfl

theorem picture?_withComment (comment : FlacVorbisComment) (block : FlacMetadataBlock) :
    (withComment comment block).picture? = block.picture? := by
  cases block <;> rfl

theorem map_withComment_of_none {blocks : List FlacMetadataBlock} (comment : FlacVorbisComment)
    (h : ∀ block ∈ blocks, block.isVorbisComment = false) :
    blocks.map (withComment comment) = blocks :=
  (List.map_congr_left fun block hblock => withComment_of_not comment (h block hblock)).trans
    (List.map_id blocks)

theorem filter_map_withComment (comment : FlacVorbisComment) (blocks : List FlacMetadataBlock) :
    (blocks.map (withComment comment)).filter (!·.isVorbisComment) =
      blocks.filter (!·.isVorbisComment) := by
  rw [List.filter_map]
  simp only [Function.comp_def, isVorbisComment_withComment]
  refine map_withComment_of_none comment fun block hblock => ?_
  simpa using (List.mem_filter.mp hblock).2

theorem filter_isPicture_map_withComment (comment : FlacVorbisComment)
    (blocks : List FlacMetadataBlock) :
    (blocks.map (withComment comment)).filter (!·.isPicture) =
      (blocks.filter (!·.isPicture)).map (withComment comment) := by
  rw [List.filter_map]
  simp only [Function.comp_def, isPicture_withComment]

end Blocks

namespace FlacMetadataEditSession

variable {s : FlacMetadataEditSession} {comments : CommentMap}

/-- The only comment block gets the new map in its place and keeps its vendor. -/
theorem setVorbisComments_replaces (hcomments : comments.entries ≠ []) {comment : FlacVorbisComment}
    (h : s.mutableBlocks.filterMap FlacMetadataBlock.vorbisComment? = [comment]) :
    (s.setVorbisComments comments).mutableBlocks =
      s.mutableBlocks.map (withComment ⟨comment.vendor, comments⟩) := by
  obtain ⟨before, block, behind, hsplit, hbefore, hblock, hbehind⟩ :=
    List.filterMap_eq_cons_iff.mp h
  obtain rfl := eq_of_vorbisComment?_eq_some hblock
  simp only [vorbisComment?_eq_none] at hbefore
  simp only [List.filterMap_eq_nil_iff, vorbisComment?_eq_none] at hbehind
  have hindex : s.mutableBlocks.findIdx? (·.isVorbisComment) = some before.length := by
    rw [hsplit, List.findIdx?_append, List.findIdx?_eq_none_iff.mpr hbefore, Option.none_or,
      List.findIdx?_cons]
    simp [FlacMetadataBlock.isVorbisComment]
  have hvendor : s.vendorAt before.length = comment.vendor := by
    rw [vendorAt, hsplit, List.getElem?_append_right (Nat.le_refl _), Nat.sub_self]
    rfl
  rw [setVorbisComments, if_neg hcomments, hindex]
  dsimp only
  rw [hvendor, hsplit, List.set_append_right _ _ (Nat.le_refl _), Nat.sub_self, List.set_cons_zero,
    List.map_append, List.map_cons, map_withComment_of_none _ hbefore,
    map_withComment_of_none _ hbehind]
  rfl

/-- Without a comment block the new one comes first, with the original vendor. -/
theorem setVorbisComments_inserts (hcomments : comments.entries ≠ [])
    (h : s.mutableBlocks.filterMap FlacMetadataBlock.vorbisComment? = []) :
    (s.setVorbisComments comments).mutableBlocks =
      .vorbisComment ⟨s.originalMetadata.vorbisComment.elim [] (·.vendor), comments⟩ ::
        s.mutableBlocks := by
  simp only [List.filterMap_eq_nil_iff, vorbisComment?_eq_none] at h
  rw [setVorbisComments, if_neg hcomments, List.findIdx?_eq_none_iff.mpr h]

end FlacMetadataEditSession

/-! ## A session follows its history -/

section Session

variable {original : FlacMetadata} {edits : List SessionEdit}

/-- A comment that was never removed is there. -/
theorem exists_currentComment (h : staysInPlace original edits = true) :
    ∃ comment, currentComment original edits = some comment := by
  rw [staysInPlace, Bool.and_eq_true, Bool.not_eq_true'] at h
  obtain ⟨horiginal, hremoved⟩ := h
  rw [currentComment]
  cases hlast : lastComments edits with
  | none => exact Option.isSome_iff_exists.mp horiginal
  | some comments =>
    cases comments with
    | some comments => exact ⟨_, rfl⟩
    | none =>
      obtain ⟨edit, hedit, hcomments⟩ := List.mem_filterMap.mp (List.mem_of_getLast? hlast)
      rw [commentsRemoved, List.any_eq_false] at hremoved
      exact absurd (beq_iff_eq.mpr hcomments) (hremoved edit hedit)

theorem vendor_currentComment {comment : FlacVorbisComment}
    (h : currentComment original edits = some comment) :
    comment.vendor = original.vorbisComment.elim [] (·.vendor) := by
  rw [currentComment] at h
  split at h
  · rw [h]
    rfl
  · cases h
  · cases h
    rfl

theorem commentedBlocks_inPlace {comment : FlacVorbisComment}
    (h : staysInPlace original edits = true)
    (hcomment : currentComment original edits = some comment) :
    commentedBlocks original edits = (keptBlocks original edits).map (withComment comment) := by
  rw [commentedBlocks, h, hcomment]

theorem commentedBlocks_moved (h : staysInPlace original edits = false) :
    commentedBlocks original edits =
      (currentComment original edits).toList.map .vorbisComment ++
        (keptBlocks original edits).filter (!·.isVorbisComment) := by
  rw [commentedBlocks, h]

theorem filterMap_keptBlocks :
    (keptBlocks original edits).filterMap FlacMetadataBlock.vorbisComment? =
      original.blocks.filterMap FlacMetadataBlock.vorbisComment? := by
  rw [keptBlocks]
  split
  · rw [List.filterMap_filter]
    refine List.filterMap_congr fun block _ => ?_
    cases block <;> rfl
  · rfl

theorem filterMap_map_picture (pictures : List FlacPicture) :
    (pictures.map FlacMetadataBlock.picture).filterMap FlacMetadataBlock.vorbisComment? = [] := by
  rw [List.filterMap_map]
  exact List.filterMap_eq_nil_iff.mpr fun _ _ => rfl

theorem filterMap_filter_not (blocks : List FlacMetadataBlock) :
    (blocks.filter (!·.isVorbisComment)).filterMap FlacMetadataBlock.vorbisComment? = [] := by
  refine List.filterMap_eq_nil_iff.mpr fun block hblock => vorbisComment?_eq_none.mpr ?_
  simpa using (List.mem_filter.mp hblock).2

/-- The original comment is the only one. -/
theorem FlacMetadata.FromFile.comments (h : original.FromFile) :
    original.blocks.filterMap FlacMetadataBlock.vorbisComment? = original.vorbisComment.toList := by
  have hsingle := h.single
  rw [h.comment]
  cases hcomments : original.blocks.filterMap FlacMetadataBlock.vorbisComment? with
  | nil => rfl
  | cons comment comments =>
    rw [hcomments, List.length_cons] at hsingle
    obtain rfl : comments = [] := List.eq_nil_of_length_eq_zero (by omega)
    rfl

/-- The comment blocks of a session: the current comment, if there is one. -/
theorem vorbisComments_blocksAfter (h : original.FromFile) :
    (blocksAfter original edits).filterMap FlacMetadataBlock.vorbisComment? =
      (currentComment original edits).toList := by
  rw [blocksAfter, List.filterMap_append, filterMap_map_picture, List.append_nil]
  cases hplace : staysInPlace original edits with
  | false =>
    rw [commentedBlocks_moved hplace, List.filterMap_append, filterMap_filter_not, List.append_nil,
      List.filterMap_map]
    exact List.filterMap_some
  | true =>
    obtain ⟨comment, hcomment⟩ := exists_currentComment hplace
    rw [staysInPlace, Bool.and_eq_true] at hplace
    obtain ⟨comment₀, horiginal⟩ := Option.isSome_iff_exists.mp hplace.1
    have hkept : (keptBlocks original edits).filterMap FlacMetadataBlock.vorbisComment? =
        [comment₀] := by
      rw [filterMap_keptBlocks, h.comments, horiginal]
      rfl
    rw [commentedBlocks_inPlace (by rw [staysInPlace, Bool.and_eq_true]; exact hplace) hcomment,
      List.filterMap_map, hcomment]
    simp only [Function.comp_def, vorbisComment?_withComment]
    rw [← List.map_filterMap, hkept]
    rfl

/-- An edit that does not name the comments. -/
theorem currentComment_snoc_of_none {edit : SessionEdit} (h : edit.comments? = none) :
    currentComment original (edits ++ [edit]) = currentComment original edits ∧
      staysInPlace original (edits ++ [edit]) = staysInPlace original edits := by
  constructor
  · rw [currentComment, lastComments_snoc, h]
    rfl
  · rw [staysInPlace, commentsRemoved_snoc, h, show (none == some (none : Option CommentMap)) = false
      from rfl, Bool.or_false, staysInPlace]

/-- A set. -/
theorem currentComment_snoc_of_set {edit : SessionEdit} {comments : CommentMap}
    (h : edit.comments? = some (some comments)) :
    currentComment original (edits ++ [edit]) =
        some ⟨original.vorbisComment.elim [] (·.vendor), comments⟩ ∧
      staysInPlace original (edits ++ [edit]) = staysInPlace original edits := by
  constructor
  · rw [currentComment, lastComments_snoc, h]
    rfl
  · rw [staysInPlace, commentsRemoved_snoc, h, show (some (some comments) == some none) = false
      from rfl, Bool.or_false, staysInPlace]

/-- A removal. -/
theorem currentComment_snoc_of_removal {edit : SessionEdit} (h : edit.comments? = some none) :
    currentComment original (edits ++ [edit]) = none ∧
      staysInPlace original (edits ++ [edit]) = false := by
  constructor
  · rw [currentComment, lastComments_snoc, h]
    rfl
  · rw [staysInPlace, commentsRemoved_snoc, h]
    simp

theorem keptBlocks_snoc_of_ne {edit : SessionEdit} (h : edit ≠ .removePictures) :
    keptBlocks original (edits ++ [edit]) = keptBlocks original edits := by
  rw [keptBlocks, picturesRemoved_snoc, beq_eq_false_iff_ne.mpr h, Bool.or_false, keptBlocks]

theorem keptBlocks_removePictures :
    keptBlocks original (edits ++ [.removePictures]) =
      (keptBlocks original edits).filter (!·.isPicture) := by
  rw [keptBlocks, picturesRemoved_snoc, beq_self_eq_true, Bool.or_true, if_pos rfl, keptBlocks]
  split
  · rw [List.filter_filter]
    simp only [Bool.and_self]
  · rfl

/-- The blocks after a set of the comments. -/
theorem blocksAfter_set (h : original.FromFile) {s : FlacMetadataEditSession}
    (horiginal : s.originalMetadata = original) (hblocks : s.mutableBlocks = blocksAfter original edits)
    {comments : CommentMap} (hcomments : comments.entries ≠ []) :
    (s.setVorbisComments comments).mutableBlocks =
      blocksAfter original (edits ++ [.setVorbisComments comments]) := by
  have hset : (SessionEdit.setVorbisComments comments).comments? = some (some comments) := by
    rw [SessionEdit.comments?, if_neg hcomments]
  obtain ⟨hcurrent, hplace⟩ := @currentComment_snoc_of_set original edits _ _ hset
  have hkept : keptBlocks original (edits ++ [.setVorbisComments comments]) =
      keptBlocks original edits := keptBlocks_snoc_of_ne nofun
  have hadded : addedPictures (edits ++ [.setVorbisComments comments]) = addedPictures edits :=
    addedPictures_snoc edits _
  have hpictures : ∀ block ∈ (addedPictures edits).map FlacMetadataBlock.picture,
      block.isVorbisComment = false := by
    intro block hblock
    obtain ⟨picture, -, rfl⟩ := List.mem_map.mp hblock
    rfl
  have hmoved : ∀ block ∈ (keptBlocks original edits).filter (!·.isVorbisComment),
      block.isVorbisComment = false := by
    intro block hblock
    simpa using (List.mem_filter.mp hblock).2
  have hall := @vorbisComments_blocksAfter original edits h
  rw [← hblocks] at hall
  cases hcomment : currentComment original edits with
  | some comment =>
    rw [hcomment] at hall
    rw [s.setVorbisComments_replaces hcomments hall, hblocks, vendor_currentComment hcomment,
      blocksAfter, blocksAfter, hadded, List.map_append, map_withComment_of_none _ hpictures]
    congr 1
    cases hstays : staysInPlace original edits with
    | true =>
      rw [commentedBlocks_inPlace hstays hcomment,
        commentedBlocks_inPlace (hplace.trans hstays) hcurrent, hkept, List.map_map]
      exact List.map_congr_left fun block _ => withComment_withComment _ _ block
    | false =>
      rw [commentedBlocks_moved hstays, commentedBlocks_moved (hplace.trans hstays), hcomment,
        hcurrent, hkept, List.map_append, map_withComment_of_none _ hmoved]
      rfl
  | none =>
    have hstays : staysInPlace original edits = false := by
      by_contra hstays
      obtain ⟨comment, hsome⟩ := exists_currentComment (Bool.eq_true_of_not_eq_false hstays)
      rw [hcomment] at hsome
      cases hsome
    rw [hcomment] at hall
    rw [s.setVorbisComments_inserts hcomments hall, hblocks, horiginal, blocksAfter, blocksAfter,
      hadded, commentedBlocks_moved hstays, commentedBlocks_moved (hplace.trans hstays), hcomment,
      hcurrent, hkept]
    rfl

/-- The blocks after a removal of the comments. -/
theorem blocksAfter_removal {edit : SessionEdit} (hedit : edit.comments? = some none) :
    (blocksAfter original edits).filter (!·.isVorbisComment) =
      blocksAfter original (edits ++ [edit]) := by
  obtain ⟨hcurrent, hmoved⟩ := @currentComment_snoc_of_removal original edits _ hedit
  have hne : edit ≠ .removePictures := by
    rintro rfl
    cases hedit
  have hadded : addedPictures (edits ++ [edit]) = addedPictures edits := by
    rw [addedPictures_snoc]
    cases edit with
    | setVorbisComments comments => rfl
    | removeVorbisComments => rfl
    | removePictures => cases hedit
    | addPicture picture => cases hedit
  have hpictures : ((addedPictures edits).map FlacMetadataBlock.picture).filter
      (!·.isVorbisComment) = (addedPictures edits).map FlacMetadataBlock.picture := by
    refine List.filter_eq_self.mpr fun block hblock => ?_
    obtain ⟨picture, -, rfl⟩ := List.mem_map.mp hblock
    rfl
  rw [blocksAfter, blocksAfter, commentedBlocks_moved hmoved, hcurrent, hadded,
    keptBlocks_snoc_of_ne hne, List.filter_append, hpictures]
  congr 1
  cases hstays : staysInPlace original edits with
  | true =>
    obtain ⟨comment, hcomment⟩ := exists_currentComment hstays
    rw [commentedBlocks_inPlace hstays hcomment, filter_map_withComment]
    rfl
  | false =>
    rw [commentedBlocks_moved hstays, List.filter_append, List.filter_filter]
    simp only [Bool.and_self]
    congr 1
    refine List.filter_eq_nil_iff.mpr fun block hblock => ?_
    obtain ⟨comment, -, rfl⟩ := List.mem_map.mp hblock
    exact Bool.false_ne_true

/-- The blocks after a removal of the pictures. -/
theorem blocksAfter_removePictures :
    (blocksAfter original edits).filter (!·.isPicture) =
      blocksAfter original (edits ++ [.removePictures]) := by
  obtain ⟨hcurrent, hplace⟩ := @currentComment_snoc_of_none original edits .removePictures rfl
  have hadded : addedPictures (edits ++ [.removePictures]) = [] := addedPictures_snoc edits _
  have hpictures : ((addedPictures edits).map FlacMetadataBlock.picture).filter (!·.isPicture) =
      [] := by
    refine List.filter_eq_nil_iff.mpr fun block hblock => ?_
    obtain ⟨picture, -, rfl⟩ := List.mem_map.mp hblock
    exact Bool.false_ne_true
  rw [blocksAfter, blocksAfter, hadded, List.filter_append, hpictures, List.map_nil]
  congr 1
  cases hstays : staysInPlace original edits with
  | true =>
    obtain ⟨comment, hcomment⟩ := exists_currentComment hstays
    rw [commentedBlocks_inPlace hstays hcomment,
      commentedBlocks_inPlace (hplace.trans hstays) (hcurrent.trans hcomment),
      keptBlocks_removePictures, filter_isPicture_map_withComment]
  | false =>
    have hcomments : ((currentComment original edits).toList.map
        FlacMetadataBlock.vorbisComment).filter (!·.isPicture) =
          (currentComment original edits).toList.map FlacMetadataBlock.vorbisComment := by
      refine List.filter_eq_self.mpr fun block hblock => ?_
      obtain ⟨comment, -, rfl⟩ := List.mem_map.mp hblock
      rfl
    rw [commentedBlocks_moved hstays, commentedBlocks_moved (hplace.trans hstays), hcurrent,
      keptBlocks_removePictures, List.filter_append, hcomments, List.filter_filter,
      List.filter_filter]
    simp only [Bool.and_comm]

/-- The blocks after a picture is added. -/
theorem blocksAfter_addPicture (picture : FlacPicture) :
    blocksAfter original edits ++ [.picture picture] =
      blocksAfter original (edits ++ [.addPicture picture]) := by
  obtain ⟨hcurrent, hplace⟩ := @currentComment_snoc_of_none original edits (.addPicture picture)
    rfl
  have hadded : addedPictures (edits ++ [.addPicture picture]) = addedPictures edits ++ [picture] :=
    addedPictures_snoc edits _
  have hkept : keptBlocks original (edits ++ [.addPicture picture]) = keptBlocks original edits :=
    keptBlocks_snoc_of_ne nofun
  rw [blocksAfter, blocksAfter, hadded, List.map_append, ← List.append_assoc, commentedBlocks,
    commentedBlocks, hcurrent, hplace, hkept]
  rfl

theorem originalMetadata_foldl (edits : List SessionEdit) (s : FlacMetadataEditSession) :
    (edits.foldl SessionEdit.apply s).originalMetadata = s.originalMetadata := by
  induction edits generalizing s with
  | nil => rfl
  | cons edit edits ih =>
    rw [List.foldl_cons, ih]
    cases edit with
    | setVorbisComments comments =>
      rw [SessionEdit.apply, FlacMetadataEditSession.setVorbisComments]
      split
      · rfl
      · split <;> rfl
    | removeVorbisComments => rfl
    | removePictures => rfl
    | addPicture picture => rfl

/-- Before any edit the blocks are the original ones. -/
theorem blocksAfter_nil (h : original.FromFile) : blocksAfter original [] = original.blocks := by
  rw [blocksAfter]
  refine (List.append_nil _).trans ?_
  cases horiginal : original.vorbisComment with
  | some comment =>
    have hstays : staysInPlace original [] = true := by rw [staysInPlace, horiginal]; rfl
    have hcomment : currentComment original [] = some comment := horiginal
    rw [commentedBlocks_inPlace hstays hcomment]
    refine (List.map_congr_left fun block hblock => ?_).trans (List.map_id _)
    by_cases hkind : block.isVorbisComment = true
    · cases block <;> cases hkind
      rename_i comment'
      have hmem : comment' ∈ original.blocks.filterMap FlacMetadataBlock.vorbisComment? :=
        List.mem_filterMap.mpr ⟨_, hblock, rfl⟩
      rw [h.comments, horiginal] at hmem
      rw [List.mem_singleton.mp hmem]
      rfl
    · exact withComment_of_not comment (Bool.eq_false_iff.mpr hkind)
  | none =>
    have hstays : staysInPlace original [] = false := by rw [staysInPlace, horiginal]; rfl
    have hcomment : currentComment original [] = none := horiginal
    have hnone := h.comments
    rw [horiginal, Option.toList_none, List.filterMap_eq_nil_iff] at hnone
    rw [commentedBlocks_moved hstays, hcomment]
    refine (List.nil_append _).trans (List.filter_eq_self.mpr fun block hblock => ?_)
    rw [vorbisComment?_eq_none.mp (hnone block hblock)]
    rfl

/-- After any edits a session holds the blocks that its history says. -/
theorem editedBlocks_eq (h : original.FromFile) (edits : List SessionEdit) :
    editedBlocks original edits = blocksAfter original edits := by
  induction edits using List.reverseRecOn with
  | nil => exact (blocksAfter_nil h).symm
  | append_singleton edits edit ih =>
    have horiginal := originalMetadata_foldl edits (.new original)
    rw [editedBlocks_snoc]
    rw [editedBlocks] at ih
    generalize edits.foldl SessionEdit.apply (.new original) = s at ih horiginal
    cases edit with
    | setVorbisComments comments =>
      by_cases hcomments : comments.entries = []
      · have hremoval : (SessionEdit.setVorbisComments comments).comments? = some none := by
          rw [SessionEdit.comments?, if_pos hcomments]
        rw [SessionEdit.apply, FlacMetadataEditSession.setVorbisComments, if_pos hcomments,
          ← blocksAfter_removal hremoval, ← ih]
        rfl
      · exact blocksAfter_set h horiginal ih hcomments
    | removeVorbisComments =>
      rw [← blocksAfter_removal rfl, ← ih]
      rfl
    | removePictures =>
      rw [← blocksAfter_removePictures, ← ih]
      rfl
    | addPicture picture =>
      rw [← blocksAfter_addPicture, ← ih]
      rfl

theorem filterMap_picture?_moved (blocks : List FlacMetadataBlock) :
    (blocks.filter (!·.isVorbisComment)).filterMap FlacMetadataBlock.picture? =
      blocks.filterMap FlacMetadataBlock.picture? := by
  rw [List.filterMap_filter]
  refine List.filterMap_congr fun block _ => ?_
  cases block <;> rfl

theorem filterMap_picture?_keptBlocks :
    (keptBlocks original edits).filterMap FlacMetadataBlock.picture? =
      if picturesRemoved edits then [] else original.blocks.filterMap FlacMetadataBlock.picture? := by
  rw [keptBlocks]
  split
  · refine List.filterMap_eq_nil_iff.mpr fun block hblock => ?_
    have hkind := (List.mem_filter.mp hblock).2
    cases block <;> first | rfl | cases hkind
  · rfl

/-- The pictures of a session: those that are left, and those added since. -/
theorem pictures_blocksAfter :
    (blocksAfter original edits).filterMap FlacMetadataBlock.picture? =
      (if picturesRemoved edits then [] else original.blocks.filterMap FlacMetadataBlock.picture?) ++
        addedPictures edits := by
  have hadded : ((addedPictures edits).map FlacMetadataBlock.picture).filterMap
      FlacMetadataBlock.picture? = addedPictures edits := by
    rw [List.filterMap_map]
    exact List.filterMap_some
  rw [blocksAfter, List.filterMap_append, hadded, ← filterMap_picture?_keptBlocks]
  congr 1
  cases hstays : staysInPlace original edits with
  | true =>
    obtain ⟨comment, hcomment⟩ := exists_currentComment hstays
    rw [commentedBlocks_inPlace hstays hcomment, List.filterMap_map]
    exact List.filterMap_congr fun block _ => picture?_withComment comment block
  | false =>
    have hcomments : ((currentComment original edits).toList.map
        FlacMetadataBlock.vorbisComment).filterMap FlacMetadataBlock.picture? = [] := by
      rw [List.filterMap_map]
      exact List.filterMap_eq_nil_iff.mpr fun _ _ => rfl
    rw [commentedBlocks_moved hstays, List.filterMap_append, hcomments, filterMap_picture?_moved]
    rfl

/-- Neither a comment block nor a picture. -/
def isOther (block : FlacMetadataBlock) : Bool := !block.isVorbisComment && !block.isPicture

theorem filter_isOther_keptBlocks :
    (keptBlocks original edits).filter isOther = original.blocks.filter isOther := by
  rw [keptBlocks]
  split
  · rw [List.filter_filter]
    refine List.filter_congr fun block _ => ?_
    cases block <;> rfl
  · rfl

/-- The blocks of the other kinds are the original ones. -/
theorem others_blocksAfter :
    (blocksAfter original edits).filter isOther = original.blocks.filter isOther := by
  have hadded : ((addedPictures edits).map FlacMetadataBlock.picture).filter isOther = [] := by
    refine List.filter_eq_nil_iff.mpr fun block hblock => ?_
    obtain ⟨picture, -, rfl⟩ := List.mem_map.mp hblock
    exact Bool.false_ne_true
  rw [blocksAfter, List.filter_append, hadded, List.append_nil, ← filter_isOther_keptBlocks]
  cases hstays : staysInPlace original edits with
  | true =>
    obtain ⟨comment, hcomment⟩ := exists_currentComment hstays
    have hother : isOther ∘ withComment comment = isOther := by
      funext block
      simp [isOther]
    rw [commentedBlocks_inPlace hstays hcomment, List.filter_map, hother]
    refine map_withComment_of_none comment fun block hblock => ?_
    have hkind := (List.mem_filter.mp hblock).2
    rw [isOther, Bool.and_eq_true, Bool.not_eq_true'] at hkind
    exact hkind.1
  | false =>
    have hcomments : ((currentComment original edits).toList.map
        FlacMetadataBlock.vorbisComment).filter isOther = [] := by
      refine List.filter_eq_nil_iff.mpr fun block hblock => ?_
      obtain ⟨comment, -, rfl⟩ := List.mem_map.mp hblock
      exact Bool.false_ne_true
    rw [commentedBlocks_moved hstays, List.filter_append, hcomments, List.nil_append,
      List.filter_filter]
    refine List.filter_congr fun block _ => ?_
    cases block <;> rfl

end Session

/-- Blocks that differ from the original ones only in the kinds the edits name. -/
structure TouchesOnlyNamed (original : FlacMetadata) (edits : List SessionEdit)
    (blocks : List FlacMetadataBlock) : Prop where
  single : (blocks.filterMap FlacMetadataBlock.vorbisComment?).length ≤ 1
  others : blocks.filter isOther = original.blocks.filter isOther
  pictures : blocks.filterMap FlacMetadataBlock.picture? =
    (if picturesRemoved edits then [] else original.blocks.filterMap FlacMetadataBlock.picture?) ++
      addedPictures edits
  comment : blocks.filterMap FlacMetadataBlock.vorbisComment? =
    (currentComment original edits).toList
  vendor : ∀ comment, .vorbisComment comment ∈ blocks →
    comment.vendor = original.vorbisComment.elim [] (·.vendor)
  /-- Until the first removal an original comment stays in its place. -/
  inPlace : original.vorbisComment.isSome → commentsRemoved edits = false →
    ∃ comment, currentComment original edits = some comment ∧
      blocks = (keptBlocks original edits).map (withComment comment) ++
        (addedPictures edits).map .picture
  /-- A comment set anew comes first. -/
  inFront : original.vorbisComment = none ∨ commentsRemoved edits = true →
    ∀ comment, currentComment original edits = some comment →
      blocks.head? = some (.vorbisComment comment)

/-- Whatever the edits of a session, they touch only what they name. -/
theorem editSession_touchesOnlyNamed {original : FlacMetadata} (h : original.FromFile)
    (edits : List SessionEdit) :
    TouchesOnlyNamed original edits (editedBlocks original edits) := by
  have hcomments := @vorbisComments_blocksAfter original edits h
  rw [editedBlocks_eq h edits]
  constructor
  case single =>
    rw [hcomments]
    cases currentComment original edits <;> simp
  case others => exact others_blocksAfter
  case pictures => exact pictures_blocksAfter
  case comment => exact hcomments
  case vendor =>
    intro comment hmem
    have hpicked : comment ∈ (blocksAfter original edits).filterMap
        FlacMetadataBlock.vorbisComment? := List.mem_filterMap.mpr ⟨_, hmem, rfl⟩
    rw [hcomments, Option.mem_toList] at hpicked
    exact vendor_currentComment hpicked
  case inPlace =>
    intro hsome hremoved
    have hstays : staysInPlace original edits = true := by rw [staysInPlace, hsome, hremoved]; rfl
    obtain ⟨comment, hcomment⟩ := exists_currentComment hstays
    exact ⟨comment, hcomment, by rw [blocksAfter, commentedBlocks_inPlace hstays hcomment]⟩
  case inFront =>
    intro hmoved comment hcomment
    have hstays : staysInPlace original edits = false := by
      rcases hmoved with hnone | hremoved
      · rw [staysInPlace, hnone]
        rfl
      · rw [staysInPlace, hremoved]
        simp
    rw [blocksAfter, commentedBlocks_moved hstays, hcomment]
    rfl

/-- The metadata of a file with the given blocks. -/
def fileMetadata (blocks : List FlacMetadataBlock) : FlacMetadata where
  streamInfo := newStreamInfo emptyStreamInfo
  vorbisComment := (blocks.filterMap FlacMetadataBlock.vorbisComment?).head?
  pictures := []
  applicationBlocks := []
  seekTables := []
  cueSheets := []
  paddingBlocks := []
  unknownBlocks := []
  blocks := blocks

/-- A comment is set, removed and set again. -/
theorem editSession_touchesOnlyNamed_again :
    TouchesOnlyNamed (fileMetadata [.seekTable ⟨[]⟩, .vorbisComment ⟨['v'], .empty⟩])
      [.setVorbisComments (commentMap ["A=b".toList]), .removeVorbisComments,
        .setVorbisComments (commentMap ["A=c".toList])]
      [.vorbisComment ⟨['v'], commentMap ["A=c".toList]⟩, .seekTable ⟨[]⟩] :=
  editSession_touchesOnlyNamed ⟨by decide, rfl⟩ _

end JFlac.Metadata
