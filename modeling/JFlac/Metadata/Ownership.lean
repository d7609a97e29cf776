import JFlac.Metadata.Replacing

/-!
# Who owns the blocks of an edit

While blocks are built, those built so far fill the first slots of the table, in order, and none is
deleted (`Filled`). Where a step fails, every block is in a slot or deleted (`Owned`). The insertion
moves the blocks to the chain in the order of the slots.
-/

namespace JFlac.Metadata.Native

open JFlac.Lib (Cursor)

variable {faults : Faults} {lib : LibFlacMetadata} {s t : Context}

/-! ## Steps -/

/-- No step failed. -/
def Context.Clean (s : Context) : Prop := ∀ step, (step, false) ∉ s.trace

/-- Nothing happened to a block. -/
structure Keeps (s t : Context) : Prop where
  created : t.created = s.created
  deleted : t.deleted = s.deleted
  metadataBlocks : t.metadataBlocks = s.metadataBlocks
  writes : t.writes = s.writes

theorem Keeps.refl (s : Context) : Keeps s s := ⟨rfl, rfl, rfl, rfl⟩

theorem Keeps.trans {u : Context} (h : Keeps s t) (h' : Keeps t u) : Keeps s u where
  created := h'.created.trans h.created
  deleted := h'.deleted.trans h.deleted
  metadataBlocks := h'.metadataBlocks.trans h.metadataBlocks
  writes := h'.writes.trans h.writes

/-- Steps that succeed: they touch no block and record no failure. -/
structure Succeeds (s t : Context) : Prop extends Keeps s t where
  clean : s.Clean → t.Clean

theorem Succeeds.trans {u : Context} (h : Succeeds s t) (h' : Succeeds t u) : Succeeds s u :=
  ⟨h.toKeeps.trans h'.toKeeps, fun hs => h'.clean (h.clean hs)⟩

theorem keeps_step {step : Step} {b : Bool} (h : s.step faults step = (b, t)) : Keeps s t := by
  unfold Context.step at h
  split at h
  all_goals
    simp only [Prod.mk.injEq] at h
    obtain ⟨-, rfl⟩ := h
    exact ⟨rfl, rfl, rfl, rfl⟩

theorem step_succeeds {step : Step} (h : s.step faults step = (true, t)) :
    step.Passes ∧ Succeeds s t := by
  refine ⟨?_, keeps_step h, ?_⟩
  all_goals
    unfold Context.step at h
    split at h
  · rename_i hrun
    exact Step.passes_of_run hrun
  · simp at h
  · simp only [Prod.mk.injEq, true_and] at h
    subst h
    intro hs step hstep
    simp only [List.mem_append, List.mem_singleton, Prod.mk.injEq, Bool.false_eq_true, and_false,
      or_false] at hstep
    exact hs step hstep
  · simp at h

/-- A JNI call that fails leaves an exception. -/
theorem isSome_pending_of_jni {call : JniCall} (h : s.step faults (.jni call) = (false, t)) :
    t.pending.isSome := by
  unfold Context.step at h
  split at h
  · simp at h
  · rename_i exception hrun
    simp only [Prod.mk.injEq, true_and] at h
    obtain ⟨e, rfl⟩ := Option.isSome_iff_exists.mp (Step.isSome_of_run_jni hrun)
    rw [← h]
    rfl

theorem keeps_runSteps {steps : List Step} {b : Bool} (h : runSteps faults steps s = (b, t)) :
    Keeps s t := by
  induction steps generalizing s with
  | nil =>
    simp only [runSteps, Prod.mk.injEq] at h
    rw [← h.2]
    exact Keeps.refl s
  | cons step steps ih =>
    unfold runSteps at h
    split at h
    · rename_i u hu
      exact (keeps_step hu).trans (ih h)
    · rename_i u hu
      simp only [Prod.mk.injEq] at h
      rw [← h.2]
      exact keeps_step hu

theorem runSteps_succeeds {steps : List Step} (h : runSteps faults steps s = (true, t)) :
    (∀ step ∈ steps, step.Passes) ∧ Succeeds s t := by
  induction steps generalizing s with
  | nil =>
    simp only [runSteps, Prod.mk.injEq, true_and] at h
    rw [← h]
    exact ⟨by simp, Keeps.refl s, id⟩
  | cons step steps ih =>
    unfold runSteps at h
    split at h
    · rename_i u hu
      obtain ⟨hpass, hsu⟩ := step_succeeds hu
      obtain ⟨hrest, hut⟩ := ih h
      exact ⟨List.forall_mem_cons.mpr ⟨hpass, hrest⟩, hsu.trans hut⟩
    · simp at h

/-- JNI calls that fail leave an exception. -/
theorem isSome_pending_of_runSteps {steps : List Step}
    (hjni : ∀ step ∈ steps, ∃ call, step = .jni call)
    (h : runSteps faults steps s = (false, t)) : t.pending.isSome := by
  induction steps generalizing s with
  | nil => simp [runSteps] at h
  | cons step steps ih =>
    rw [List.forall_mem_cons] at hjni
    obtain ⟨⟨call, rfl⟩, hrest⟩ := hjni
    unfold runSteps at h
    split at h
    · exact ih hrest h
    · rename_i u hu
      simp only [Prod.mk.injEq, true_and] at h
      rw [← h]
      exact isSome_pending_of_jni hu

/-! ## The table -/

/-- The blocks built so far hold the natives and fill the first slots; `free` slots remain. -/
structure Filled (natives : List StreamMetadata) (free : ℕ) (s : Context) : Prop where
  clean : s.Clean
  created : s.created = natives.map some
  deleted : s.deleted = []
  metadataBlocks : s.metadataBlocks =
    (List.range natives.length).map some ++ List.replicate free none
  writes : s.writes = []

/-- Every block that was built is in a slot or deleted, and that once. -/
structure Owned (s : Context) : Prop where
  custody : (s.metadataBlocks.reduceOption ++ s.deleted).Perm (List.range s.created.length)
  writes : s.writes = []

theorem reduceOption_slots {α : Type} (ids : List α) (free : ℕ) :
    (ids.map some ++ List.replicate free none).reduceOption = ids := by
  rw [List.reduceOption_append, List.reduceOption_replicate_none, List.append_nil,
    List.reduceOption, List.filterMap_map]
  exact List.filterMap_some

theorem Filled.owned {natives : List StreamMetadata} {free : ℕ} (h : Filled natives free s) :
    Owned s := by
  refine ⟨?_, h.writes⟩
  rw [h.metadataBlocks, reduceOption_slots, h.deleted, h.created, List.append_nil, List.length_map]

theorem Filled.succeeds {natives : List StreamMetadata} {free : ℕ} (h : Filled natives free s)
    (hst : Succeeds s t) : Filled natives free t where
  clean := hst.clean h.clean
  created := hst.created.trans h.created
  deleted := hst.deleted.trans h.deleted
  metadataBlocks := hst.metadataBlocks.trans h.metadataBlocks
  writes := hst.writes.trans h.writes

theorem Owned.keeps (h : Owned s) (hst : Keeps s t) : Owned t := by
  refine ⟨?_, hst.writes.trans h.writes⟩
  rw [hst.metadataBlocks, hst.deleted, hst.created]
  exact h.custody

theorem Owned.destroy (h : Owned s) : Owned s.destroyMetadataBlocks := by
  refine ⟨?_, h.writes⟩
  show ([] ++ (s.deleted ++ s.metadataBlocks.reduceOption)).Perm (List.range s.created.length)
  rw [List.nil_append]
  exact List.perm_append_comm.trans h.custody

/-! ## Builders -/

/-- The first free slot of a table takes the block that was built last. -/
theorem set_slots (n free : ℕ) (slot : Option ℕ) :
    ((List.range n).map some ++ List.replicate (free + 1) none).set n slot =
      (List.range n).map some ++ slot :: List.replicate free none := by
  rw [List.set_append_right n slot (by simp), List.length_map, List.length_range, Nat.sub_self,
    List.replicate_succ, List.set_cons_zero]

/-- A block that was built and has no slot yet. -/
structure Published (natives : List StreamMetadata) (block : StreamMetadata) (free : ℕ)
    (s : Context) : Prop where
  clean : s.Clean
  created : s.created = (natives ++ [block]).map some
  deleted : s.deleted = []
  metadataBlocks : s.metadataBlocks =
    (List.range natives.length).map some ++ List.replicate (free + 1) none
  writes : s.writes = []

/-- A builder that fails has deleted its block, if there was one. -/
theorem runBuilder_failed {natives : List StreamMetadata} {free : ℕ} {builder : Builder}
    (hs : Filled natives free s) (h : runBuilder faults builder s = (none, t)) : Owned t := by
  unfold runBuilder at h
  split at h
  · rename_i u hu
    simp only [Prod.mk.injEq, true_and] at h
    rw [← h]
    exact hs.owned.keeps (keeps_runSteps hu)
  · rename_i u hu
    have hfilled := hs.succeeds (runSteps_succeeds hu).2
    simp only at h
    split at h
    · rename_i v hv
      have hkeeps := keeps_runSteps hv
      simp only [Prod.mk.injEq, true_and] at h
      rw [← h]
      refine ⟨?_, hkeeps.writes.trans hfilled.writes⟩
      show (v.metadataBlocks.reduceOption ++ (v.deleted ++ [u.created.length])).Perm
        (List.range v.created.length)
      rw [hkeeps.metadataBlocks, hkeeps.deleted, hkeeps.created, hfilled.metadataBlocks,
        hfilled.deleted, hfilled.created, reduceOption_slots, List.nil_append, List.length_append,
        List.length_map, List.length_singleton, List.range_succ]
    · simp at h

/-- A builder that succeeds has built the block of its model. -/
theorem runBuilder_published {natives : List StreamMetadata} {free id : ℕ} {builder : Builder}
    {result : Build (Option StreamMetadata)} (hbuilds : builder.Builds result)
    (hs : Filled natives (free + 1) s) (h : runBuilder faults builder s = (some id, t)) :
    id = natives.length ∧
      ∃ block, result = .ok (some block) ∧ Published natives block free t := by
  unfold runBuilder at h
  split at h
  · simp at h
  · rename_i u hu
    obtain ⟨hbefore, hsu⟩ := runSteps_succeeds hu
    have hfilled := hs.succeeds hsu
    simp only at h
    split at h
    · simp at h
    · rename_i v hv
      obtain ⟨hinside, huv⟩ := runSteps_succeeds hv
      simp only [Prod.mk.injEq, Option.some.injEq] at h
      obtain ⟨hid, rfl⟩ := h
      obtain ⟨block, hcontent, hresult⟩ := hbuilds fun step hstep =>
        (List.mem_append.mp hstep).elim
          (fun hmem => hbefore step (List.mem_append_left _ hmem)) (hinside step)
      refine ⟨by rw [← hid, hfilled.created, List.length_map], block, hresult, ?_⟩
      exact
        { clean := huv.clean hfilled.clean
          created := by
            rw [huv.created, hfilled.created, hcontent, List.map_append]
            rfl
          deleted := huv.deleted.trans hfilled.deleted
          metadataBlocks := huv.metadataBlocks.trans hfilled.metadataBlocks
          writes := huv.writes.trans hfilled.writes }

section
variable {natives : List StreamMetadata} {block : StreamMetadata} {free : ℕ}

theorem Published.setSlot (h : Published natives block free s) :
    Filled (natives ++ [block]) free (s.setSlot natives.length (some natives.length)) where
  clean := h.clean
  created := h.created
  deleted := h.deleted
  metadataBlocks := by
    show s.metadataBlocks.set natives.length (some natives.length) = _
    rw [h.metadataBlocks, set_slots, List.length_append, List.length_singleton, List.range_succ,
      List.map_append, List.append_assoc]
    rfl
  writes := h.writes

/-- The length check is that of the block that was built. -/
theorem Published.lengthFits (h : Published natives block free s)
    (hpass : (lengthFits natives.length s).Passes) :
    ensureMetadataBlockLengthFits (some block) = .ok (some block) := by
  obtain ⟨result, hresult⟩ := Step.exists_of_passes_ensure hpass
  have hblock : s.block natives.length = some block := by
    rw [Context.block, h.created, List.map_append, List.getElem?_append_right (by simp)]
    simp
  rw [hblock, ensureMetadataBlockLengthFits] at hresult
  rw [ensureMetadataBlockLengthFits]
  split
  · rename_i hlong
    simp [hlong] at hresult
  · rfl

end

/-! ## Grouped blocks -/

/-- The outcome of building more blocks: a failure leaves every block in a slot or deleted, and a
success has filled the next slots with blocks that satisfy `P`. -/
def Extends (natives : List StreamMetadata) (free : ℕ) (P : List StreamMetadata → Prop) :
    Option ℕ × Context → Prop
  | (none, t) => Owned t
  | (some index, t) =>
    ∃ more, P more ∧ index = natives.length + more.length ∧ Filled (natives ++ more) free t

/-- One block with its length check. -/
theorem lengthFits_extends {natives : List StreamMetadata} {block : StreamMetadata} {free : ℕ}
    {u : Context} {b : Bool} (hs : Published natives block free s)
    (h : (s.setSlot natives.length (some natives.length)).step faults
      (lengthFits natives.length s) = (b, u)) :
    Owned u ∧ (b = true →
      ensureMetadataBlockLengthFits (some block) = .ok (some block) ∧
        Filled (natives ++ [block]) free u) := by
  refine ⟨hs.setSlot.owned.keeps (keeps_step h), ?_⟩
  rintro rfl
  obtain ⟨hpass, hsucceeds⟩ := step_succeeds h
  exact ⟨hs.lengthFits hpass, hs.setSlot.succeeds hsucceeds⟩

variable (faults lib) in
/-- `build_metadata_array_blocks` builds the blocks of its models in their order. -/
theorem buildMetadataArrayBlocks_extends {α : Type} {builder : α → Builder}
    {toBlock : α → FlacMetadataBlock}
    (hbuilds : ∀ value, (builder value).Builds (buildBlock lib (toBlock value)))
    {values : List α} {natives : List StreamMetadata} {free : ℕ}
    (hs : Filled natives (values.length + free) s) :
    Extends natives free
      (fun more => Metadata.buildOrderedMetadataBlocks lib (values.map toBlock) =
        .ok (more.map some))
      (buildMetadataArrayBlocks faults builder values natives.length s) := by
  induction values generalizing natives s with
  | nil =>
    refine ⟨[], rfl, rfl, ?_⟩
    rwa [List.append_nil, ← Nat.zero_add free]
  | cons value values ih =>
    have hs : Filled natives (values.length + free + 1) s := by
      rwa [List.length_cons, Nat.add_right_comm] at hs
    unfold buildMetadataArrayBlocks
    split
    · rename_i u hu
      exact hs.owned.keeps (keeps_runSteps hu)
    · rename_i u hu
      have hfilled := hs.succeeds (runSteps_succeeds hu).2
      split
      · rename_i v hv
        exact runBuilder_failed hfilled hv
      · rename_i id v hv
        obtain ⟨rfl, block, hblock, hpublished⟩ :=
          runBuilder_published (hbuilds value) hfilled hv
        split
        · rename_i w hw
          exact (lengthFits_extends hpublished hw).1
        · rename_i w hw
          obtain ⟨hfits, hw⟩ := (lengthFits_extends hpublished hw).2 rfl
          have hrest := ih hw
          rw [List.length_append, List.length_singleton] at hrest
          revert hrest
          rcases buildMetadataArrayBlocks faults builder values (natives.length + 1) w with
            ⟨_ | index, r⟩
          · exact id
          · rintro ⟨more, hmore, hindex, hr⟩
            refine ⟨block :: more, ?_, ?_, ?_⟩
            · simp only [List.map_cons, Metadata.buildOrderedMetadataBlocks,
                Metadata.buildOrderedMetadataBlock, hblock, hfits, hmore, bind, Except.bind]
            · simp only [hindex, List.length_append, List.length_cons, List.length_nil]
              omega
            · rwa [List.append_assoc, List.singleton_append] at hr

variable (faults lib) in
/-- The comment block comes first. -/
theorem buildCommentSlot_extends {entries : List Text} {free : ℕ}
    (hs : Filled [] ((if entries = [] then 0 else 1) + free) s) :
    Extends [] free (fun more => buildGroupedComments lib entries = .ok (more.map some))
      (buildCommentSlot faults lib entries s) := by
  unfold buildCommentSlot
  split
  · rename_i hentries
    rw [if_pos hentries, Nat.zero_add] at hs
    exact ⟨[], by rw [buildGroupedComments, if_pos hentries]; rfl, rfl, hs⟩
  · rename_i hentries
    rw [if_neg hentries, Nat.add_comm] at hs
    split
    · rename_i v hv
      exact runBuilder_failed hs hv
    · rename_i id v hv
      have hbuilds := vorbisCommentBuilder_builds lib none entries false (by simp [hentries])
      obtain ⟨rfl, block, hblock, hpublished⟩ := runBuilder_published hbuilds hs hv
      split
      · rename_i w hw
        exact (lengthFits_extends hpublished hw).1
      · rename_i w hw
        obtain ⟨hfits, hw⟩ := (lengthFits_extends hpublished hw).2 rfl
        refine ⟨[block], ?_, rfl, hw⟩
        rw [buildGroupedComments, if_neg hentries]
        simp only [hblock, hfits, bind, Except.bind, List.map_cons, List.map_nil]

variable (faults lib) in
/-- One more array. -/
theorem thenArray_extends {α : Type} {builder : α → Builder} (toBlock : α → FlacMetadataBlock)
    (hbuilds : ∀ value, (builder value).Builds (buildBlock lib (toBlock value)))
    {values : List α} {free : ℕ} {P : List StreamMetadata → Prop} {r : Option ℕ × Context}
    (hr : Extends [] (values.length + free) P r) :
    Extends [] free
      (fun all => ∃ first more, all = first ++ more ∧ P first ∧
        Metadata.buildOrderedMetadataBlocks lib (values.map toBlock) = .ok (more.map some))
      (thenArray faults builder values r) := by
  rcases r with ⟨_ | index, s⟩
  · exact hr
  · obtain ⟨first, hfirst, hindex, hs⟩ := hr
    rw [List.nil_append] at hs
    rw [List.length_nil, Nat.zero_add] at hindex
    subst hindex
    have hmore := buildMetadataArrayBlocks_extends faults lib hbuilds hs
    revert hmore
    show Extends first free _ (buildMetadataArrayBlocks faults builder values first.length s) →
      Extends [] free _ (buildMetadataArrayBlocks faults builder values first.length s)
    rcases buildMetadataArrayBlocks faults builder values first.length s with ⟨_ | index, r⟩
    · exact id
    · rintro ⟨more, hmore, hindex, hr⟩
      exact ⟨first ++ more, ⟨first, more, rfl, hfirst, hmore⟩, by simp [hindex], hr⟩

variable (faults lib) in
/-- The table of `build_metadata_blocks` has one slot for each block. -/
theorem buildArrays_extends {metadata : FlacEncodingMetadata}
    (hs : Filled [] (totalBlocks metadata) s) (hcount : totalBlocks metadata ≤ uint32Max) :
    Extends [] 0
      (fun all => Metadata.buildMetadataBlocks lib metadata = .ok (all.map some))
      (buildArrays faults lib metadata s) := by
  have hs : Filled [] ((if flattenGroups metadata.comments.entries = [] then 0 else 1) +
      (metadata.pictures.length + (metadata.applicationBlocks.length +
        (metadata.seekTables.length + (metadata.cueSheets.length +
          (metadata.paddingBlocks.length + (metadata.unknownBlocks.length + 0))))))) s := by
    rw [totalBlocks] at hs
    simpa only [Nat.add_assoc, Nat.add_zero] using hs
  have hall :=
    thenArray_extends faults lib .unknown unknownMetadataBuilder_builds <|
    thenArray_extends faults lib .padding paddingBuilder_builds <|
    thenArray_extends faults lib .cueSheet (cueSheetBuilder_builds lib) <|
    thenArray_extends faults lib .seekTable (seekTableBuilder_builds lib) <|
    thenArray_extends faults lib .application applicationBuilder_builds <|
    thenArray_extends faults lib .picture pictureBuilder_builds <|
    buildCommentSlot_extends faults lib hs
  revert hall
  show Extends [] 0 _ (buildArrays faults lib metadata s) →
    Extends [] 0 _ (buildArrays faults lib metadata s)
  rcases buildArrays faults lib metadata s with ⟨_ | index, t⟩
  · exact id
  · rintro ⟨all, ⟨_, unknowns, rfl, ⟨_, paddings, rfl, ⟨_, cueSheets, rfl, ⟨_, seekTables, rfl,
      ⟨_, applications, rfl, ⟨comments, pictures, rfl, hcomments, hpictures⟩, happlications⟩,
      hseekTables⟩, hcueSheets⟩, hpaddings⟩, hunknowns⟩, hindex, ht⟩
    refine ⟨_, ?_, hindex, ht⟩
    rw [Metadata.buildMetadataBlocks, if_neg (Nat.not_lt.mpr hcount)]
    simp only [hcomments, hpictures, happlications, hseekTables, hcueSheets, hpaddings, hunknowns,
      bind, Except.bind, List.map_append]

/-- The outcome of building all blocks of a request. -/
def Builds (result : Build (List (Option StreamMetadata))) : Bool × Context → Prop
  | (false, t) => Owned t
  | (true, t) => ∃ natives, result = .ok (natives.map some) ∧ Filled natives 0 t

/-- A table of empty slots. -/
theorem Filled.allocate (hs : Filled [] 0 s) (count : ℕ) : Filled [] count (s.allocate count) where
  clean := hs.clean
  created := hs.created
  deleted := hs.deleted
  metadataBlocks := rfl
  writes := hs.writes

/-- A block that is requested has a slot. -/
theorem buildMetadataBlocks_of_totalBlocks {metadata : FlacEncodingMetadata}
    (h : totalBlocks metadata = 0) : Metadata.buildMetadataBlocks lib metadata = .ok [] := by
  have hcount : ¬ uint32Max < totalBlocks metadata := by
    rw [h]
    exact Nat.not_lt_zero _
  have hcomments : flattenGroups metadata.comments.entries = [] := by
    by_contra hne
    rw [totalBlocks, if_neg hne] at h
    omega
  rw [totalBlocks, if_pos hcomments] at h
  have hnil : metadata.pictures = [] ∧ metadata.applicationBlocks = [] ∧ metadata.seekTables = [] ∧
      metadata.cueSheets = [] ∧ metadata.paddingBlocks = [] ∧ metadata.unknownBlocks = [] := by
    simp only [← List.length_eq_zero_iff]
    omega
  obtain ⟨hpictures, happlications, hseekTables, hcueSheets, hpaddings, hunknowns⟩ := hnil
  rw [Metadata.buildMetadataBlocks, if_neg hcount]
  simp only [buildGroupedComments, if_pos hcomments, hpictures, happlications, hseekTables,
    hcueSheets, hpaddings, hunknowns, List.map_nil, Metadata.buildOrderedMetadataBlocks, bind,
    Except.bind, List.append_nil]

theorem buildMetadataBlocks_builds {metadata : FlacEncodingMetadata} (hs : Filled [] 0 s) :
    Builds (Metadata.buildMetadataBlocks lib metadata)
      (buildMetadataBlocks faults lib metadata s) := by
  unfold buildMetadataBlocks
  split
  · rename_i u hu
    exact hs.owned.keeps (keeps_step hu)
  · rename_i u hu
    obtain ⟨hpass, hsu⟩ := step_succeeds hu
    have hcount : totalBlocks metadata ≤ uint32Max := by
      by_contra hlt
      have hcheck : ensureBlockCount (totalBlocks metadata) = .ok () := hpass
      rw [ensureBlockCount, if_pos (by omega)] at hcheck
      cases hcheck
    have hfilled := hs.succeeds hsu
    split
    · rename_i hzero
      exact ⟨[], buildMetadataBlocks_of_totalBlocks hzero, hfilled⟩
    · split
      · rename_i v hv
        exact hfilled.owned.keeps (keeps_step hv)
      · rename_i v hv
        have htable := (hfilled.succeeds (step_succeeds hv).2).allocate (totalBlocks metadata)
        have hall := buildArrays_extends faults lib htable hcount
        revert hall
        rcases buildArrays faults lib metadata (v.allocate (totalBlocks metadata)) with
          ⟨_ | index, t⟩
        · exact Owned.destroy
        · rintro ⟨natives, hnatives, -, ht⟩
          exact ⟨natives, hnatives, ht⟩

/-! ## Ordered blocks -/

/-- A block that is too long leaves no slot. -/
theorem Published.drop {natives : List StreamMetadata} {block : StreamMetadata} {free : ℕ}
    (hs : Published natives block free s)
    (hst : Keeps (s.setSlot natives.length (some natives.length)) t) :
    Owned ((t.delete natives.length).setSlot natives.length none) := by
  refine ⟨?_, hst.writes.trans hs.writes⟩
  show ((t.metadataBlocks.set natives.length none).reduceOption ++
    (t.deleted ++ [natives.length])).Perm (List.range t.created.length)
  have hslots : t.metadataBlocks.set natives.length none =
      (List.range natives.length).map some ++ List.replicate (free + 1) none := by
    rw [hst.metadataBlocks]
    show (s.metadataBlocks.set _ _).set _ _ = _
    rw [List.set_set, hs.metadataBlocks, set_slots, List.replicate_succ]
  have hdeleted : t.deleted = [] := hst.deleted.trans hs.deleted
  have hcreated : t.created = (natives ++ [block]).map some := hst.created.trans hs.created
  rw [hslots, reduceOption_slots, hdeleted, hcreated, List.nil_append, List.length_map,
    List.length_append, List.length_singleton, List.range_succ]

variable (faults lib) in
theorem buildOrderedSlots_builds {blocks : List FlacMetadataBlock} {natives : List StreamMetadata}
    (hs : Filled natives blocks.length s) :
    match buildOrderedSlots faults lib blocks natives.length s with
    | (false, t) => Owned t
    | (true, t) => ∃ more, Metadata.buildOrderedMetadataBlocks lib blocks = .ok (more.map some) ∧
        Filled (natives ++ more) 0 t := by
  induction blocks generalizing natives s with
  | nil => exact ⟨[], rfl, by rwa [List.append_nil]⟩
  | cons block blocks ih =>
    have hs : Filled natives (blocks.length + 1) s := hs
    unfold buildOrderedSlots
    rcases hu : runSteps faults
        [.jni .pushLocalFrame, .jni .getIntArrayRegion, .jni .getObjectArrayElement] s with
      ⟨_ | _, u⟩
    · exact (hs.owned.keeps (keeps_runSteps hu)).destroy
    · have hfilled := hs.succeeds (runSteps_succeeds hu).2
      simp only
      unfold buildOrderedMetadataBlock
      rcases hv : runBuilder faults (orderedBuilder lib block) u with ⟨_ | id, v⟩
      · exact (runBuilder_failed hfilled hv).destroy
      · obtain ⟨rfl, native, hnative, hpublished⟩ :=
          runBuilder_published (orderedBuilder_builds lib block) hfilled hv
        simp only
        rcases hw : (v.setSlot natives.length (some natives.length)).step faults
            (lengthFits natives.length v) with ⟨_ | _, w⟩
        · exact (hpublished.drop (keeps_step hw)).destroy
        · obtain ⟨hfits, hw⟩ := (lengthFits_extends hpublished hw).2 rfl
          have hrest := ih hw
          rw [List.length_append, List.length_singleton] at hrest
          simp only
          revert hrest
          rcases buildOrderedSlots faults lib blocks (natives.length + 1) w with ⟨_ | _, r⟩
          · exact id
          · rintro ⟨more, hmore, hr⟩
            refine ⟨native :: more, ?_, ?_⟩
            · simp only [List.map_cons, Metadata.buildOrderedMetadataBlocks,
                Metadata.buildOrderedMetadataBlock, hnative, hfits, hmore, bind, Except.bind]
            · rwa [List.append_assoc, List.singleton_append] at hr

theorem buildOrderedMetadataBlocks_builds {blocks : List FlacMetadataBlock} (hs : Filled [] 0 s) :
    Builds (Metadata.buildOrderedMetadataBlocks lib blocks)
      (buildOrderedMetadataBlocks faults lib blocks s) := by
  unfold buildOrderedMetadataBlocks
  split
  · rename_i u hu
    exact hs.owned.keeps (keeps_step hu)
  · rename_i u hu
    have htable := (hs.succeeds (step_succeeds hu).2).allocate blocks.length
    have hslots := buildOrderedSlots_builds faults lib htable
    revert hslots
    show _ → Builds _ (buildOrderedSlots faults lib blocks 0 (u.allocate blocks.length))
    rw [List.length_nil]
    rcases buildOrderedSlots faults lib blocks 0 (u.allocate blocks.length) with ⟨_ | _, t⟩
    · exact id
    · exact id

variable (faults lib) in
/-- Building a request is building its blocks, or every block is in a slot or deleted. -/
theorem buildRequest_builds (metadata : FlacEncodingMetadata) (hs : Filled [] 0 s) :
    Builds (buildBlocks lib metadata) (buildRequest faults lib metadata s) := by
  unfold buildRequest buildBlocks
  split
  · exact buildOrderedMetadataBlocks_builds hs
  · exact buildMetadataBlocks_builds hs

end JFlac.Metadata.Native
