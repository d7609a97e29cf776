import JFlac.Metadata.Ownership

/-!
# The chain of an edit

The deletions leave STREAMINFO alone with the iterator on it, and the insertions append the built
blocks in the order of the slots. So the chain that is written is STREAMINFO and the requested
blocks; an edit that ends before the write has every built block in the chain or deleted.
-/

namespace JFlac.Metadata.Native

open JFlac.Lib (Cursor)

variable {faults : Faults} {lib : LibFlacMetadata} {s t : Context}

theorem builtIds_built (ids : List ℕ) : builtIds (ids.map .built) = ids := by
  rw [builtIds, List.filterMap_map]
  exact List.filterMap_some

theorem builtIds_append (xs ys : List Node) : builtIds (xs ++ ys) = builtIds xs ++ builtIds ys :=
  List.filterMap_append

/-- A chain without built blocks. -/
theorem builtIds_eq_nil {chain : List Node} (h : ∀ node ∈ chain, ∃ block, node = .read block) :
    builtIds chain = [] := by
  refine List.filterMap_eq_nil_iff.mpr fun node hnode => ?_
  obtain ⟨block, rfl⟩ := h node hnode
  rfl

/-! ## Deletion -/

/-- The loop ends with the first block alone, or stops at blocks that were read. -/
theorem deleteBlocks_spec {fuel : ℕ} {first : Node} {following : List Node}
    (hfuel : following.length ≤ fuel) {b : Bool} {iterator : Cursor Node}
    (h : deleteBlocks faults fuel ⟨[], first, following⟩ s = (b, iterator, t)) :
    Keeps s t ∧ (∀ node ∈ iterator.toList, node ∈ first :: following) ∧
      (b = true → iterator = ⟨[], first, []⟩ ∧ Succeeds s t) := by
  induction fuel generalizing following s with
  | zero =>
    obtain rfl : following = [] := List.length_eq_zero_iff.mp (Nat.le_zero.mp hfuel)
    simp only [deleteBlocks, Prod.mk.injEq] at h
    obtain ⟨-, rfl, rfl⟩ := h
    exact ⟨Keeps.refl s, fun _ => id, fun _ => ⟨rfl, Keeps.refl s, id⟩⟩
  | succ fuel ih =>
    cases following with
    | nil =>
      simp only [deleteBlocks, Cursor.next, Prod.mk.injEq] at h
      obtain ⟨-, rfl, rfl⟩ := h
      exact ⟨Keeps.refl s, fun _ => id, fun _ => ⟨rfl, Keeps.refl s, id⟩⟩
    | cons x rest =>
      simp only [deleteBlocks, Cursor.next, Cursor.delete, Option.isSome_some,
        Option.getD_some] at h
      rcases hu : s.step faults (.native .iteratorDeleteBlock true) with ⟨_ | _, u⟩
      · simp only [hu, Prod.mk.injEq] at h
        obtain ⟨rfl, rfl, rfl⟩ := h
        exact ⟨keeps_step hu, fun _ => id, fun hb => by cases hb⟩
      · simp only [hu] at h
        obtain ⟨hkeeps, hmem, hdone⟩ := ih (Nat.le_of_succ_le_succ hfuel) h
        refine ⟨(keeps_step hu).trans hkeeps, fun node hnode => ?_, fun hb => ?_⟩
        · rcases List.mem_cons.mp (hmem node hnode) with hfirst | hrest
          · exact List.mem_cons.mpr (Or.inl hfirst)
          · exact List.mem_cons_of_mem _ (List.mem_cons_of_mem _ hrest)
        · exact ⟨(hdone hb).1, (step_succeeds hu).2.trans (hdone hb).2⟩

/-! ## Insertion -/

/-- The slots before an index are cleared. -/
theorem set_cleared (index : ℕ) (id : ℕ) (ids : List ℕ) :
    (List.replicate index none ++ (id :: ids).map some).set index none =
      List.replicate (index + 1) none ++ ids.map some := by
  rw [List.set_append_right index none (by simp), List.length_replicate, Nat.sub_self,
    List.map_cons, List.set_cons_zero, List.replicate_succ', List.append_assoc,
    List.singleton_append]

/-- The insertions move blocks from the first slots to the end of the chain, in order: all of them,
or those before the first that fails. -/
theorem insertBlocks_spec {ids : List ℕ} {index : ℕ} {iterator last : Cursor Node} {b : Bool}
    (hslots : s.metadataBlocks = List.replicate index none ++ ids.map some)
    (hend : iterator.following = [])
    (h : insertBlocks faults (ids.map some) index iterator s = (b, last, t)) :
    ∃ inserted left, ids = inserted ++ left ∧
      last.toList = iterator.toList ++ inserted.map .built ∧
      t.metadataBlocks = List.replicate (index + inserted.length) none ++ left.map some ∧
      t.created = s.created ∧ t.deleted = s.deleted ∧ t.writes = s.writes ∧
      (b = true → left = [] ∧ (s.Clean → t.Clean)) := by
  induction ids generalizing index iterator s with
  | nil =>
    simp only [List.map_nil, insertBlocks, Prod.mk.injEq] at h
    obtain ⟨-, rfl, rfl⟩ := h
    exact ⟨[], [], rfl, (List.append_nil _).symm, hslots, rfl, rfl, rfl, fun _ => ⟨rfl, id⟩⟩
  | cons id ids ih =>
    simp only [List.map_cons, insertBlocks] at h
    rcases hu : s.step faults (.native .iteratorInsertBlockAfter true) with ⟨_ | _, u⟩
    · have hkeeps := keeps_step hu
      simp only [hu, Prod.mk.injEq] at h
      obtain ⟨rfl, rfl, rfl⟩ := h
      refine ⟨[], id :: ids, rfl, (List.append_nil _).symm, hkeeps.metadataBlocks.trans hslots,
        hkeeps.created, hkeeps.deleted, hkeeps.writes, fun hb => ?_⟩
      cases hb
    · obtain ⟨-, hsucceeds⟩ := step_succeeds hu
      simp only [hu] at h
      have hnext : (u.setSlot index none).metadataBlocks =
          List.replicate (index + 1) none ++ ids.map some := by
        show u.metadataBlocks.set index none = _
        rw [hsucceeds.metadataBlocks, hslots, set_cleared]
      obtain ⟨inserted, left, rfl, hlast, hmetadataBlocks, hcreated, hdeleted, hwrites, hdone⟩ :=
        ih hnext ((Cursor.following_insertAfter (.built id) iterator).trans hend) h
      refine ⟨id :: inserted, left, rfl, ?_, ?_, hcreated.trans hsucceeds.created,
        hdeleted.trans hsucceeds.deleted, hwrites.trans hsucceeds.writes, fun hb => ?_⟩
      · rw [hlast, Cursor.toList_insertAfter hend, List.append_assoc]
        rfl
      · rw [hmetadataBlocks, List.length_cons, Nat.add_assoc, Nat.add_comm 1]
      · exact ⟨(hdone hb).1, fun hs => (hdone hb).2 (hsucceeds.clean hs)⟩

/-! ## How an edit ends -/

/-- Every block that was built is in the chain or deleted, and that once. -/
def Custody (edited : Edited) : Prop :=
  (builtIds edited.chain ++ edited.context.deleted).Perm (List.range edited.context.created.length)

/-- An edit that does not reach the write. -/
structure Aborted (edited : Edited) : Prop where
  writes : edited.context.writes = []
  pending : edited.context.pending.isSome
  custody : Custody edited

/-- An edit that writes STREAMINFO and the natives, after no step that failed. -/
structure Replaced (info : StreamInfo) (natives : List StreamMetadata) (edited : Edited) :
    Prop where
  writes : edited.context.writes = [(.streamInfo info :: natives).map some]
  clean : ∀ step, (step, false) ∈ edited.context.trace → step = .native .chainWrite true
  custody : Custody edited

/-- An edit that ends before any block is in the chain. -/
theorem Owned.aborted {chain : List Node} (hs : Owned s) (hempty : s.metadataBlocks = [])
    (hpending : s.pending.isSome) (hchain : builtIds chain = []) : Aborted ⟨s, chain⟩ := by
  refine ⟨hs.writes, hpending, ?_⟩
  show (builtIds chain ++ s.deleted).Perm (List.range s.created.length)
  have hcustody := hs.custody
  rw [hempty] at hcustody
  rw [hchain]
  exact hcustody

theorem isSome_throwNew (exception : Throwable) (s : Context) :
    (s.throwNew exception).pending.isSome := rfl

theorem isSome_throwUnlessPending (message : String) (s : Context) :
    (s.throwUnlessPending message).pending.isSome := by
  unfold Context.throwUnlessPending
  split
  · assumption
  · rfl

theorem keeps_throwNew (exception : Throwable) (s : Context) : Keeps s (s.throwNew exception) :=
  ⟨rfl, rfl, rfl, rfl⟩

theorem keeps_throwUnlessPending (message : String) (s : Context) :
    Keeps s (s.throwUnlessPending message) := by
  unfold Context.throwUnlessPending
  split
  · exact Keeps.refl s
  · exact keeps_throwNew _ s

/-- The contents of the built blocks, in the order of their numbers. -/
theorem map_content_built {natives : List StreamMetadata} (h : s.created = natives.map some) :
    ((List.range natives.length).map Node.built).map s.content = natives.map some := by
  apply List.ext_getElem
  · simp
  · intro i hi hi'
    have hlt : i < natives.length := by simpa using hi'
    simp only [List.getElem_map, List.getElem_range, Context.content, Context.block, h]
    rw [List.getElem?_map, List.getElem?_eq_getElem hlt]
    rfl

theorem trace_step {step : Step} {b : Bool} (h : s.step faults step = (b, t)) :
    t.trace = s.trace ++ [(step, b)] := by
  unfold Context.step at h
  split at h
  all_goals
    simp only [Prod.mk.injEq] at h
    obtain ⟨rfl, rfl⟩ := h
    rfl

/-- The write after no failure: only the write itself can fail. -/
theorem chainWrite_spec {chain : List Node} {b : Bool} (hs : s.Clean)
    (h : chainWrite faults chain s = (b, t)) :
    t.writes = s.writes ++ [chain.map s.content] ∧ t.created = s.created ∧ t.deleted = s.deleted ∧
      ∀ step, (step, false) ∈ t.trace → step = .native .chainWrite true := by
  have hkeeps := keeps_step h
  refine ⟨hkeeps.writes, hkeeps.created, hkeeps.deleted, fun step hstep => ?_⟩
  rw [trace_step h, List.mem_append, List.mem_singleton] at hstep
  rcases hstep with hearlier | hlast
  · exact absurd hearlier (hs step)
  · exact (Prod.mk.inj hlast).1

/-- From a table that holds all blocks: the insertion stops, or the chain is written. -/
theorem insertAndWrite_spec {natives : List StreamMetadata} {info : StreamInfo}
    (hs : Filled natives 0 s) :
    Aborted (insertAndWrite faults ⟨[], .read (.streamInfo info), []⟩ s) ∨
      Replaced info natives (insertAndWrite faults ⟨[], .read (.streamInfo info), []⟩ s) := by
  have hslots : s.metadataBlocks = (List.range natives.length).map some := by
    rw [hs.metadataBlocks, List.replicate_zero, List.append_nil]
  unfold insertAndWrite
  rw [Cursor.rewind_first]
  rcases hinsert : insertBlocks faults s.metadataBlocks 0 ⟨[], .read (.streamInfo info), []⟩ s with
    ⟨b, last, t⟩
  rw [hslots] at hinsert
  obtain ⟨inserted, left, hids, hlast, hmetadataBlocks, hcreated, hdeleted, hwrites, hdone⟩ :=
    insertBlocks_spec (by rw [hslots]; rfl) rfl hinsert
  have hcount : t.created.length = natives.length := by
    rw [hcreated, hs.created, List.length_map]
  have hchain : builtIds last.toList = inserted := by
    rw [hlast, builtIds_append, builtIds_built]
    rfl
  cases b with
  | false =>
    refine Or.inl ⟨hwrites.trans hs.writes, isSome_throwNew _ _, ?_⟩
    show (builtIds last.toList ++ (t.deleted ++ t.metadataBlocks.reduceOption)).Perm
      (List.range t.created.length)
    rw [hchain, hdeleted, hs.deleted, hmetadataBlocks, List.reduceOption_append,
      List.reduceOption_replicate_none, List.nil_append, List.nil_append, hcount, hids,
      ← List.append_nil (left.map some), ← List.replicate_zero, reduceOption_slots]
  | true =>
    obtain ⟨rfl, hclean⟩ := hdone rfl
    rw [List.append_nil] at hids
    subst hids
    have hdestroyed : t.destroyMetadataBlocks.deleted = [] := by
      show t.deleted ++ t.metadataBlocks.reduceOption = []
      rw [hdeleted, hs.deleted, hmetadataBlocks, List.map_nil, List.append_nil,
        List.reduceOption_replicate_none, List.append_nil]
    have hbuilt : t.destroyMetadataBlocks.created = natives.map some := hcreated.trans hs.created
    have hcontents : last.toList.map t.destroyMetadataBlocks.content =
        (.streamInfo info :: natives).map some := by
      rw [hlast, List.map_append, map_content_built hbuilt]
      rfl
    have hclean : t.destroyMetadataBlocks.Clean := hclean hs.clean
    refine Or.inr ?_
    simp only
    rcases hwrite : chainWrite faults last.toList t.destroyMetadataBlocks with ⟨b, u⟩
    obtain ⟨hu, hucreated, hudeleted, htrace⟩ := chainWrite_spec hclean hwrite
    have hwritten : u.writes = [(.streamInfo info :: natives).map some] := by
      rw [hu, hcontents]
      show t.writes ++ _ = _
      rw [hwrites, hs.writes, List.nil_append]
    have hcustody : (builtIds last.toList ++ u.deleted).Perm (List.range u.created.length) := by
      rw [hchain, hudeleted, hdestroyed, hucreated, List.append_nil]
      show (List.range natives.length).Perm (List.range t.created.length)
      rw [hcount]
    cases b with
    | false => exact ⟨hwritten, htrace, hcustody⟩
    | true => exact ⟨hwritten, htrace, hcustody⟩

/-! ## `writeMetadata` -/

theorem Filled.empty (hs : Keeps Context.empty s) (hclean : s.Clean) : Filled [] 0 s where
  clean := hclean
  created := hs.created
  deleted := hs.deleted
  metadataBlocks := hs.metadataBlocks
  writes := hs.writes

/-- An edit that ends while nothing is built. -/
theorem aborted_of_keeps {chain : List Node} (hs : Keeps Context.empty s)
    (hpending : s.pending.isSome) (hchain : builtIds chain = []) : Aborted ⟨s, chain⟩ := by
  refine ⟨hs.writes, hpending, ?_⟩
  show (builtIds chain ++ s.deleted).Perm (List.range s.created.length)
  rw [hchain, hs.deleted, hs.created]
  exact List.Perm.refl _

theorem jni_of_mem_getters {names : List String} {step : Step}
    (h : step ∈ methodIDs names ++ getters names) : ∃ call, step = .jni call := by
  rcases List.mem_append.mp h with h | h
  all_goals
    obtain ⟨name, -, rfl⟩ := List.mem_map.mp h
    exact ⟨_, rfl⟩

theorem buildAndInsert_spec {info : StreamInfo} {metadata : FlacEncodingMetadata}
    (hs : Filled [] 0 s) (hempty : Keeps Context.empty s) :
    Aborted (buildAndInsert faults lib metadata ⟨[], .read (.streamInfo info), []⟩ s) ∨
      ∃ natives, buildBlocks lib metadata = .ok (natives.map some) ∧
        Replaced info natives
          (buildAndInsert faults lib metadata ⟨[], .read (.streamInfo info), []⟩ s) := by
  unfold buildAndInsert
  rcases hrequest : runSteps faults (methodIDs requestGetters ++ getters requestGetters) s with
    ⟨_ | _, u⟩
  · refine Or.inl (aborted_of_keeps (hempty.trans (keeps_runSteps hrequest)) ?_ rfl)
    exact isSome_pending_of_runSteps (fun _ => jni_of_mem_getters) hrequest
  · have hbuilds := buildRequest_builds faults lib metadata
      (hs.succeeds (runSteps_succeeds hrequest).2)
    simp only
    revert hbuilds
    rcases buildRequest faults lib metadata u with ⟨_ | _, v⟩
    · intro hv
      exact Or.inl ((hv.destroy.keeps (keeps_throwUnlessPending _ _)).aborted
        (keeps_throwUnlessPending _ _).metadataBlocks (isSome_throwUnlessPending _ _) rfl)
    · rintro ⟨natives, hnatives, hv⟩
      exact (insertAndWrite_spec hv).imp_right fun hreplaced => ⟨natives, hnatives, hreplaced⟩

/-- `editChain` from an environment in which nothing was built. -/
theorem editChain_spec {info : StreamInfo} {rest : List StreamMetadata}
    {metadata : FlacEncodingMetadata} (hempty : Keeps Context.empty s) (hclean : s.Clean) :
    Aborted (editChain faults lib (.streamInfo info :: rest) metadata s) ∨
      ∃ natives, buildBlocks lib metadata = .ok (natives.map some) ∧
        Replaced info natives (editChain faults lib (.streamInfo info :: rest) metadata s) := by
  unfold editChain
  simp only
  rcases hdelete : deleteBlocks faults rest.length
    ⟨[], .read (.streamInfo info), rest.map .read⟩ s with ⟨b, iterator, u⟩
  obtain ⟨hkeeps, hmem, hdone⟩ := deleteBlocks_spec (List.length_map _).le hdelete
  have hu := hempty.trans hkeeps
  cases b with
  | false =>
    refine Or.inl (aborted_of_keeps (hu.trans (keeps_throwNew _ _)) (isSome_throwNew _ _) ?_)
    refine builtIds_eq_nil fun node hnode => ?_
    rcases List.mem_cons.mp (hmem node hnode) with rfl | hrest
    · exact ⟨_, rfl⟩
    · obtain ⟨block, -, rfl⟩ := List.mem_map.mp hrest
      exact ⟨block, rfl⟩
  | true =>
    obtain ⟨rfl, hsucceeds⟩ := hdone rfl
    exact buildAndInsert_spec (Filled.empty hu (hsucceeds.clean hclean)) hu

/-- The outcome of opening the chain: nothing is built, and a failure leaves an exception. -/
structure Opens (s : Context) (r : Bool × Context) : Prop where
  keeps : Keeps s r.2
  clean : r.1 = true → s.Clean → r.2.Clean
  pending : r.1 = false → r.2.pending.isSome

theorem Succeeds.opens (h : Succeeds s t) : Opens s (true, t) where
  keeps := h.toKeeps
  clean _ := h.clean
  pending hfalse := by cases hfalse

theorem Keeps.opens (h : Keeps s t) (hpending : t.pending.isSome) : Opens s (false, t) where
  keeps := h
  clean htrue := by cases htrue
  pending _ := hpending

variable (faults) in
theorem openChain_opens (path : Text) (s : Context) : Opens s (openChain faults path s) := by
  unfold openChain
  split
  · rename_i u hu
    exact ((keeps_runSteps hu).trans (keeps_throwUnlessPending _ _)).opens
      (isSome_throwUnlessPending _ _)
  · rename_i u hu
    have hsu := (runSteps_succeeds hu).2
    split
    · rename_i v hv
      have hsv := hsu.toKeeps.trans (keeps_step hv)
      exact (hsv.trans (keeps_throwNew _ _)).opens (isSome_throwNew _ _)
    · rename_i v hv
      have hsv := hsu.trans (step_succeeds hv).2
      split
      · rename_i w hw
        have hsw := hsv.toKeeps.trans (keeps_step hw)
        exact (hsw.trans (keeps_throwNew _ _)).opens (isSome_throwNew _ _)
      · rename_i w hw
        have hsw := hsv.trans (step_succeeds hw).2
        split
        · rename_i x hx
          have hsx := hsw.toKeeps.trans (keeps_step hx)
          exact (hsx.trans (keeps_throwNew _ _)).opens (isSome_throwNew _ _)
        · rename_i x hx
          exact (hsw.trans (step_succeeds hx).2).opens

variable (faults lib) in
/-- An edit replaces the blocks of the chain, or ends with an exception and without a write. -/
theorem writeMetadata_spec (path : Text) (info : StreamInfo) (rest : List StreamMetadata)
    (metadata : FlacEncodingMetadata) :
    Aborted (writeMetadata faults lib path (.streamInfo info :: rest) metadata) ∨
      ∃ natives, buildBlocks lib metadata = .ok (natives.map some) ∧
        Replaced info natives
          (writeMetadata faults lib path (.streamInfo info :: rest) metadata) := by
  unfold writeMetadata
  have hopens := openChain_opens faults path Context.empty
  revert hopens
  rcases openChain faults path Context.empty with ⟨_ | _, s⟩
  all_goals intro hopens
  · exact Or.inl (aborted_of_keeps hopens.keeps (hopens.pending rfl) rfl)
  · exact editChain_spec hopens.keeps (hopens.clean rfl fun _ h => by cases h)

/-- What is written is the chain of the edit that meets no failure. -/
theorem writes_refines {path : Text} {info : StreamInfo} {rest : List StreamMetadata}
    {metadata : FlacEncodingMetadata} {chain : List (Option StreamMetadata)}
    (h : chain ∈
      (writeMetadata faults lib path (.streamInfo info :: rest) metadata).context.writes) :
    ∃ blocks, Metadata.writeMetadata lib (.streamInfo info :: rest) metadata = .ok blocks ∧
      chain = blocks.map some := by
  rcases writeMetadata_spec faults lib path info rest metadata with
    haborted | ⟨natives, hnatives, hreplaced⟩
  · rw [haborted.writes] at h
    cases h
  · rw [hreplaced.writes, List.mem_singleton] at h
    refine ⟨.streamInfo info :: natives, ?_, h⟩
    have hreduce : (natives.map some).reduceOption = natives := by
      rw [← List.append_nil (natives.map some), ← List.replicate_zero, reduceOption_slots]
    simp only [Metadata.writeMetadata, hnatives, hreduce]

/-- A metadata edit replaces the chain exactly, or does not write at all. What is written is
STREAMINFO and the requested blocks in their order; a step that fails before the write leaves an
exception and no write. However the edit ends, each block that was built is owned by the chain or
deleted, exactly once. -/
theorem writeMetadata_replaces_or_aborts (faults : Faults) (lib : LibFlacMetadata) (path : Text)
    (info : StreamInfo) (rest : List StreamMetadata) (metadata : FlacEncodingMetadata) :
    let edited := writeMetadata faults lib path (.streamInfo info :: rest) metadata
    (edited.context.writes = [] ∨
      ∃ natives, buildBlocks lib metadata = .ok (natives.map some) ∧
        edited.context.writes = [(.streamInfo info :: natives).map some]) ∧
    ((∃ step, (step, false) ∈ edited.context.trace ∧ step ≠ .native .chainWrite true) →
      edited.context.writes = [] ∧ edited.context.pending.isSome) ∧
    (edited.context.writes = [] → edited.context.pending.isSome) ∧
    (builtIds edited.chain ++ edited.context.deleted).Perm
      (List.range edited.context.created.length) := by
  intro edited
  rcases writeMetadata_spec faults lib path info rest metadata with
    haborted | ⟨natives, hnatives, hreplaced⟩
  · exact ⟨Or.inl haborted.writes, fun _ => ⟨haborted.writes, haborted.pending⟩,
      fun _ => haborted.pending, haborted.custody⟩
  · refine ⟨Or.inr ⟨natives, hnatives, hreplaced.writes⟩, ?_, ?_, hreplaced.custody⟩
    · rintro ⟨step, hstep, hne⟩
      exact absurd (hreplaced.clean step hstep) hne
    · intro hwrites
      rw [hreplaced.writes] at hwrites
      cases hwrites

/-- The second insertion fails: the first block belongs to the chain, the second is deleted. -/
example :
    let faults : Faults := ⟨fun _ _ => none, fun n _ => n = 49, fun _ => "ILLEGAL_INPUT"⟩
    let lib : LibFlacMetadata :=
      ⟨[], fun _ => true, fun _ => true, fun _ => true, fun _ _ => none⟩
    let info : StreamInfo := ⟨44100, 2, 16, 0, 4096, 4096, 0, 0, Vector.replicate 16 0⟩
    let padding : FlacMetadataBlock := .padding ⟨10, by decide, by decide⟩
    let edited := writeMetadata faults lib [] [.streamInfo info, .padding 3]
      (sessionMetadata [padding, padding])
    builtIds edited.chain = [0] ∧ edited.context.deleted = [1] ∧ edited.context.writes = [] := by
  decide

end JFlac.Metadata.Native
