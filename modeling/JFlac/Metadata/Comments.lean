import JFlac.Metadata.Blocks
import Mathlib

/-!
# Grouping Vorbis comments

The read path turns the flat entries `KEY=value` of a comment block into a map from keys to values;
the write path flattens the map again. What survives is every entry with a key, and among the
entries of one key their order.
-/

namespace JFlac.Metadata

/-- `indexOf('=')`; `none` is -1. -/
def separator (entry : Text) : Option ℕ :=
  if '=' ∈ entry then some (entry.idxOf '=') else none

/-- The part of an entry before its separator, the whole entry if it has none. -/
def keyOf (entry : Text) : Text := entry.takeWhile (· ≠ '=')

/-- The part of an entry behind its separator. -/
def valueOf (entry : Text) : Text := (entry.dropWhile (· ≠ '=')).drop 1

/-- `groupedComments.getOrPut(key) { mutableListOf() }.add(value)`. -/
def addComment (key value : Text) : List (Text × List Text) → List (Text × List Text)
  | [] => [(key, [value])]
  | (k, values) :: rest =>
    if k = key then (k, values ++ [value]) :: rest else (k, values) :: addComment key value rest

/-- One round of the loop over the entries: an entry with no key is skipped. -/
def groupStep (groups : List (Text × List Text)) (entry : Text) : List (Text × List Text) :=
  match separator entry with
  | none => groups
  | some 0 => groups
  | some (separator + 1) =>
    addComment (entry.take (separator + 1)) (entry.drop (separator + 2)) groups

/-- The grouping loop of `toPublicMetadata`. -/
def groupEntries (entries : List Text) : List (Text × List Text) := entries.foldl groupStep []

/-- `toVorbisCommentEntries`. -/
def flattenGroups (groups : List (Text × List Text)) : List Text :=
  groups.flatMap fun group => group.2.map fun value => group.1 ++ '=' :: value

/-! ## Entries with a key -/

/-- The entry has a separator, and not at its beginning. -/
def HasKey (entry : Text) : Prop := '=' ∈ entry ∧ entry.head? ≠ some '='

instance (entry : Text) : Decidable (HasKey entry) := inferInstanceAs (Decidable (_ ∧ _))

theorem keyOf_append_valueOf {entry : Text} (h : '=' ∈ entry) :
    keyOf entry ++ '=' :: valueOf entry = entry := by
  induction entry with
  | nil => simp at h
  | cons c entry ih =>
    by_cases hc : c = '='
    · subst hc
      simp [keyOf, valueOf]
    · have hmem : '=' ∈ entry := (List.mem_cons.mp h).resolve_left fun he => hc he.symm
      have hrest := ih hmem
      simp only [keyOf, valueOf, List.takeWhile_cons, List.dropWhile_cons, decide_not, hc,
        decide_false, Bool.not_false, if_true, List.cons_append] at hrest ⊢
      rw [hrest]

theorem keyOf_eq_nil {entry : Text} (h : '=' ∈ entry) : keyOf entry = [] ↔ entry.head? = some '=' := by
  cases entry with
  | nil => simp at h
  | cons c entry =>
    by_cases hc : c = '='
    · simp [keyOf, hc]
    · simp [keyOf, hc]

theorem not_mem_keyOf (entry : Text) : '=' ∉ keyOf entry := by
  intro h
  have := List.mem_takeWhile_imp h
  simp at this

/-- The key of a flattened entry is the key of its group. -/
theorem keyOf_flat {key : Text} (h : '=' ∉ key) (value : Text) : keyOf (key ++ '=' :: value) = key := by
  rw [keyOf, List.takeWhile_append_of_pos]
  · simp
  · intro c hc
    simp only [ne_eq, decide_not, Bool.not_eq_true', decide_eq_false_iff_not]
    rintro rfl
    exact h hc

theorem idxOf_eq_length_keyOf (entry : Text) : entry.idxOf '=' = (keyOf entry).length := by
  induction entry with
  | nil => rfl
  | cons c entry ih =>
    by_cases hc : c = '='
    · simp [keyOf, hc]
    · rw [List.idxOf_cons_ne _ hc, ih]
      simp [keyOf, hc]

/-- The loop adds an entry under its key, if it has one. -/
theorem groupStep_eq (groups : List (Text × List Text)) (entry : Text) :
    groupStep groups entry =
      if HasKey entry then addComment (keyOf entry) (valueOf entry) groups else groups := by
  by_cases hmem : '=' ∈ entry
  swap
  · rw [groupStep, separator, if_neg hmem, if_neg fun h : HasKey entry => hmem h.1]
  have hsplit := keyOf_append_valueOf hmem
  have hdrop : (keyOf entry ++ '=' :: valueOf entry).drop ((keyOf entry).length + 1) =
      valueOf entry := by
    rw [← List.drop_drop, List.drop_left' rfl]
    rfl
  have htake : (keyOf entry ++ '=' :: valueOf entry).take (keyOf entry).length = keyOf entry :=
    List.take_left' rfl
  rw [hsplit] at hdrop htake
  rw [groupStep, separator, if_pos hmem, idxOf_eq_length_keyOf]
  by_cases hkey : HasKey entry
  · have hne : keyOf entry ≠ [] := fun h => hkey.2 ((keyOf_eq_nil hmem).mp h)
    obtain ⟨n, hn⟩ := Nat.exists_eq_succ_of_ne_zero (mt List.length_eq_zero_iff.mp hne)
    rw [hn] at hdrop htake
    rw [if_pos hkey, hn, ← hdrop, ← htake]
  · have hhead : entry.head? = some '=' := by
      by_contra h
      exact hkey ⟨hmem, h⟩
    rw [if_neg hkey, (keyOf_eq_nil hmem).mpr hhead]
    rfl

theorem groupEntries_append (xs ys : List Text) :
    groupEntries (xs ++ ys) = ys.foldl groupStep (groupEntries xs) := List.foldl_append

/-! ## What grouping keeps -/

/-- The keys of a map of comments that came out of entries. -/
structure ProperKeys (groups : List (Text × List Text)) : Prop where
  nodup : (groups.map Prod.fst).Nodup
  no_separator : ∀ group ∈ groups, '=' ∉ group.1

theorem ProperKeys.of_cons {group : Text × List Text} {groups : List (Text × List Text)}
    (h : ProperKeys (group :: groups)) :
    '=' ∉ group.1 ∧ group.1 ∉ groups.map Prod.fst ∧ ProperKeys groups := by
  have hnodup := h.nodup
  rw [List.map_cons, List.nodup_cons] at hnodup
  exact ⟨h.no_separator group List.mem_cons_self, hnodup.1, hnodup.2,
    fun g hg => h.no_separator g (List.mem_cons_of_mem _ hg)⟩

/-- The keys after adding a value. -/
theorem mem_keys_addComment {key value k : Text} {groups : List (Text × List Text)} :
    k ∈ (addComment key value groups).map Prod.fst ↔ k = key ∨ k ∈ groups.map Prod.fst := by
  induction groups with
  | nil => simp [addComment]
  | cons group groups ih =>
    obtain ⟨g, values⟩ := group
    rw [addComment]
    by_cases hg : g = key
    · rw [if_pos hg, List.map_cons, List.map_cons, List.mem_cons, hg]
      tauto
    · rw [if_neg hg, List.map_cons, List.map_cons, List.mem_cons, List.mem_cons, ih]
      tauto

theorem ProperKeys.addComment {key : Text} (value : Text) {groups : List (Text × List Text)}
    (hkey : '=' ∉ key) (h : ProperKeys groups) : ProperKeys (addComment key value groups) := by
  induction groups with
  | nil => exact ⟨List.nodup_singleton _, by simpa [Metadata.addComment] using hkey⟩
  | cons group groups ih =>
    obtain ⟨g, values⟩ := group
    obtain ⟨hg, hnot, hrest⟩ := h.of_cons
    rw [Metadata.addComment]
    by_cases heq : g = key
    · rw [if_pos heq]
      exact ⟨h.nodup, fun group hgroup => (List.mem_cons.mp hgroup).elim (fun he => he ▸ hg)
        fun hmem => h.no_separator group (List.mem_cons_of_mem _ hmem)⟩
    · rw [if_neg heq]
      refine ⟨List.nodup_cons.mpr ⟨fun hmem => ?_, (ih hrest).nodup⟩, fun group hgroup => ?_⟩
      · exact (mem_keys_addComment.mp hmem).elim heq hnot
      · exact (List.mem_cons.mp hgroup).elim (fun he => he ▸ hg)
          fun hmem => (ih hrest).no_separator group hmem

theorem properKeys_groupEntries (entries : List Text) : ProperKeys (groupEntries entries) := by
  induction entries using List.reverseRecOn with
  | nil => exact ⟨List.nodup_nil, nofun⟩
  | append_singleton entries entry ih =>
    rw [groupEntries_append]
    show ProperKeys (groupStep (groupEntries entries) entry)
    rw [groupStep_eq]
    by_cases hkey : HasKey entry
    · rw [if_pos hkey]
      exact ih.addComment _ (not_mem_keyOf entry)
    · rw [if_neg hkey]
      exact ih

/-- `toPublicMetadata`'s map of the comments. -/
def commentMap (entries : List Text) : CommentMap :=
  ⟨groupEntries entries, (properKeys_groupEntries entries).nodup⟩

theorem CommentMap.eq_of_entries {c d : CommentMap} (h : c.entries = d.entries) : c = d := by
  cases c
  cases d
  cases h
  rfl

/-! ## What the loop computes -/

/-- The keys of the entries, each where it comes first. -/
def commentKeys (entries : List Text) : List Text :=
  ((entries.filter (HasKey ·)).map keyOf).eraseDups

/-- The values of the entries with a key, in order. -/
def commentValues (entries : List Text) (key : Text) : List Text :=
  ((entries.filter (HasKey ·)).filter (keyOf · = key)).map valueOf

/-- The entries that have a key, grouped by it. -/
def groupedByKey (entries : List Text) : List (Text × List Text) :=
  (commentKeys entries).map fun key => (key, commentValues entries key)

/-- A value is added to the group of its key, or begins a new group behind the others. -/
theorem addComment_map (key value : Text) (values : Text → List Text) {keys : List Text}
    (hnodup : keys.Nodup) :
    addComment key value (keys.map fun k => (k, values k)) =
      if key ∈ keys then
        keys.map fun k => (k, values k ++ if k = key then [value] else [])
      else (keys.map fun k => (k, values k)) ++ [(key, [value])] := by
  induction keys with
  | nil => rfl
  | cons k keys ih =>
    obtain ⟨hnot, hrest⟩ := List.nodup_cons.mp hnodup
    rw [List.map_cons, addComment]
    by_cases hk : k = key
    · subst hk
      have hsame : (keys.map fun k' => (k', values k')) =
          keys.map fun k' => (k', values k' ++ if k' = k then [value] else []) := by
        refine List.map_congr_left fun k' hk' => ?_
        have hne : k' ≠ k := fun he => hnot (he ▸ hk')
        rw [if_neg hne, List.append_nil]
      rw [if_pos rfl, if_pos List.mem_cons_self, List.map_cons, if_pos rfl, hsame]
    · rw [if_neg hk, ih hrest]
      by_cases hmem : key ∈ keys
      · rw [if_pos hmem, if_pos (List.mem_cons_of_mem k hmem), List.map_cons, if_neg hk,
          List.append_nil]
      · have hnone : key ∉ k :: keys := fun h =>
          (List.mem_cons.mp h).elim (fun he => hk he.symm) hmem
        rw [if_neg hmem, if_neg hnone, List.cons_append]

theorem commentKeys_append {entry : Text} (h : HasKey entry) (entries : List Text) :
    commentKeys (entries ++ [entry]) =
      if keyOf entry ∈ commentKeys entries then commentKeys entries
      else commentKeys entries ++ [keyOf entry] := by
  have hkeys : commentKeys (entries ++ [entry]) = commentKeys entries ++
      ([keyOf entry].removeAll ((entries.filter (HasKey ·)).map keyOf)).eraseDups := by
    unfold commentKeys
    rw [List.filter_append, List.map_append, List.eraseDups_append, List.filter_singleton,
      decide_eq_true h]
    rfl
  have hiff : keyOf entry ∈ commentKeys entries ↔
      keyOf entry ∈ (entries.filter (HasKey ·)).map keyOf := List.mem_eraseDups
  rw [hkeys]
  by_cases hmem : keyOf entry ∈ (entries.filter (HasKey ·)).map keyOf
  · have hnone : [keyOf entry].removeAll ((entries.filter (HasKey ·)).map keyOf) = [] := by
      unfold List.removeAll
      rw [List.filter_singleton, List.elem_eq_true_of_mem hmem]
      rfl
    rw [if_pos (hiff.mpr hmem), hnone, List.eraseDups_nil, List.append_nil]
  · have hall : [keyOf entry].removeAll ((entries.filter (HasKey ·)).map keyOf) =
        [keyOf entry] := by
      unfold List.removeAll
      rw [List.filter_singleton, List.elem_eq_mem, decide_eq_false hmem]
      rfl
    rw [if_neg fun h => hmem (hiff.mp h), hall]
    rfl

theorem commentValues_append {entry : Text} (h : HasKey entry) (entries : List Text) (key : Text) :
    commentValues (entries ++ [entry]) key =
      commentValues entries key ++ if key = keyOf entry then [valueOf entry] else [] := by
  unfold commentValues
  rw [List.filter_append, List.filter_append, List.map_append, List.filter_singleton,
    decide_eq_true h]
  by_cases hkey : key = keyOf entry
  · subst hkey
    simp
  · simp [hkey, Ne.symm hkey]

/-- A key that no entry has begins with no values. -/
theorem commentValues_of_not_mem {entries : List Text} {key : Text}
    (h : key ∉ commentKeys entries) : commentValues entries key = [] := by
  unfold commentKeys at h
  rw [List.mem_eraseDups] at h
  unfold commentValues
  rw [List.map_eq_nil_iff, List.filter_eq_nil_iff]
  intro entry hentry hkey
  exact h (List.mem_map.mpr ⟨entry, hentry, of_decide_eq_true hkey⟩)

/-- The loop groups the entries by key. -/
theorem groupEntries_eq (entries : List Text) : groupEntries entries = groupedByKey entries := by
  induction entries using List.reverseRecOn with
  | nil => rfl
  | append_singleton entries entry ih =>
    have hnodup : (commentKeys entries).Nodup := by
      have h := (properKeys_groupEntries entries).nodup
      rw [ih, groupedByKey, List.map_map] at h
      exact (List.map_id (commentKeys entries)) ▸ h
    rw [groupEntries_append]
    show groupStep (groupEntries entries) entry = _
    rw [groupStep_eq]
    by_cases hkey : HasKey entry
    · rw [if_pos hkey, ih]
      unfold groupedByKey
      rw [addComment_map _ _ _ hnodup, commentKeys_append hkey]
      by_cases hmem : keyOf entry ∈ commentKeys entries
      · rw [if_pos hmem, if_pos hmem]
        exact List.map_congr_left fun key _ => by rw [commentValues_append hkey]
      · rw [if_neg hmem, if_neg hmem, List.map_append, List.map_singleton,
          commentValues_append hkey, commentValues_of_not_mem hmem, if_pos rfl]
        refine congrArg (· ++ _) (List.map_congr_left fun key hmem' => ?_)
        have hne : key ≠ keyOf entry := fun he => hmem (he ▸ hmem')
        rw [commentValues_append hkey, if_neg hne, List.append_nil]
    · rw [if_neg hkey, ih]
      unfold groupedByKey commentKeys commentValues
      rw [List.filter_append, List.filter_singleton, decide_eq_false hkey]
      simp

/-! ## What grouping and flattening keeps -/

/-- The flattened entries of one group, picked by key. -/
theorem filter_flat {key : Text} (hkey : '=' ∉ key) (values : List Text) (k : Text) :
    (values.map fun value => key ++ '=' :: value).filter (keyOf · = k) =
      if key = k then values.map fun value => key ++ '=' :: value else [] := by
  have hkeyOf : ∀ entry ∈ values.map fun value => key ++ '=' :: value, keyOf entry = key := by
    intro entry hentry
    obtain ⟨value, -, rfl⟩ := List.mem_map.mp hentry
    exact keyOf_flat hkey value
  by_cases hk : key = k
  · rw [if_pos hk, List.filter_eq_self]
    exact fun entry hentry => decide_eq_true ((hkeyOf entry hentry).trans hk)
  · rw [if_neg hk, List.filter_eq_nil_iff]
    exact fun entry hentry he => hk ((hkeyOf entry hentry).symm.trans (of_decide_eq_true he))

theorem flattenGroups_cons (group : Text × List Text) (groups : List (Text × List Text)) :
    flattenGroups (group :: groups) =
      (group.2.map fun value => group.1 ++ '=' :: value) ++ flattenGroups groups := rfl

theorem filter_flattenGroups_of_not_mem {groups : List (Text × List Text)} (h : ProperKeys groups)
    {k : Text} (hk : k ∉ groups.map Prod.fst) : (flattenGroups groups).filter (keyOf · = k) = [] := by
  induction groups with
  | nil => rfl
  | cons group groups ih =>
    obtain ⟨hg, -, hrest⟩ := h.of_cons
    rw [List.map_cons, List.mem_cons, not_or] at hk
    rw [flattenGroups_cons, List.filter_append, filter_flat hg, if_neg fun he => hk.1 he.symm,
      ih hrest hk.2, List.append_nil]

/-- Adding a value adds an entry behind those of its key, and leaves the other keys alone. -/
theorem filter_flattenGroups_addComment {key : Text} (value : Text) {groups : List (Text × List Text)}
    (hkey : '=' ∉ key) (h : ProperKeys groups) (k : Text) :
    (flattenGroups (addComment key value groups)).filter (keyOf · = k) =
      (flattenGroups groups).filter (keyOf · = k) ++
        if key = k then [key ++ '=' :: value] else [] := by
  induction groups with
  | nil =>
    show ([value].map fun value => key ++ '=' :: value).filter (keyOf · = k) = _
    rw [filter_flat hkey]
    rfl
  | cons group groups ih =>
    obtain ⟨g, values⟩ := group
    obtain ⟨hg, hnot, hrest⟩ := h.of_cons
    rw [addComment]
    by_cases heq : g = key
    · subst heq
      rw [if_pos rfl, flattenGroups_cons, flattenGroups_cons, List.filter_append, List.filter_append,
        filter_flat hg, filter_flat hg]
      by_cases hk : g = k
      · subst hk
        rw [if_pos rfl, if_pos rfl, if_pos rfl, filter_flattenGroups_of_not_mem hrest hnot,
          List.map_append, List.append_nil, List.append_nil]
        rfl
      · rw [if_neg hk, if_neg hk, if_neg hk, List.append_nil]
    · rw [if_neg heq, flattenGroups_cons, flattenGroups_cons, List.filter_append, List.filter_append,
        ih hrest, List.append_assoc]

/-- Grouping and flattening keeps, for every key, the entries with this key in order; entries without
a key are gone. -/
theorem filter_flattenGroups_groupEntries (entries : List Text) (k : Text) :
    (flattenGroups (groupEntries entries)).filter (keyOf · = k) =
      (entries.filter (HasKey ·)).filter (keyOf · = k) := by
  induction entries using List.reverseRecOn with
  | nil => rfl
  | append_singleton entries entry ih =>
    have hproper := properKeys_groupEntries entries
    rw [groupEntries_append, List.filter_append, List.filter_append]
    show (flattenGroups (groupStep (groupEntries entries) entry)).filter _ = _
    rw [groupStep_eq]
    by_cases hkey : HasKey entry
    · rw [if_pos hkey, filter_flattenGroups_addComment _ (not_mem_keyOf entry) hproper, ih,
        keyOf_append_valueOf hkey.1, List.filter_singleton, decide_eq_true hkey]
      by_cases hk : keyOf entry = k
      · simp [hk]
      · simp [hk]
    · rw [if_neg hkey, ih, List.filter_singleton, decide_eq_false hkey]
      simp

/-- Lists with the same entries of every key in the same order have the same entries. -/
theorem perm_of_filter_keyOf {xs ys : List Text}
    (h : ∀ k, xs.filter (keyOf · = k) = ys.filter (keyOf · = k)) : xs.Perm ys := by
  rw [List.perm_iff_count]
  intro entry
  have hcount : ∀ zs : List Text,
      (zs.filter (keyOf · = keyOf entry)).count entry = zs.count entry :=
    fun zs => List.count_filter (decide_eq_true rfl)
  rw [← hcount xs, ← hcount ys, h]

/-- Grouping and flattening keeps the entries that have a key. -/
theorem flattenGroups_groupEntries_perm (entries : List Text) :
    (flattenGroups (groupEntries entries)).Perm (entries.filter (HasKey ·)) :=
  perm_of_filter_keyOf (filter_flattenGroups_groupEntries entries)

/-- A value of a group makes an entry. -/
theorem mem_flattenGroups {groups : List (Text × List Text)} {entry : Text} :
    entry ∈ flattenGroups groups ↔
      ∃ group ∈ groups, ∃ value ∈ group.2, group.1 ++ '=' :: value = entry := by
  simp only [flattenGroups, List.mem_flatMap, List.mem_map]

theorem ne_nil_of_mem_addComment {key value : Text} {groups : List (Text × List Text)}
    (h : ∀ group ∈ groups, group.2 ≠ []) : ∀ group ∈ addComment key value groups, group.2 ≠ [] := by
  induction groups with
  | nil => simp [addComment]
  | cons group groups ih =>
    obtain ⟨g, values⟩ := group
    obtain ⟨hhead, hrest⟩ := List.forall_mem_cons.mp h
    rw [addComment]
    by_cases hg : g = key
    · rw [if_pos hg, List.forall_mem_cons]
      exact ⟨List.append_ne_nil_of_right_ne_nil _ (List.cons_ne_nil _ _), hrest⟩
    · rw [if_neg hg, List.forall_mem_cons]
      exact ⟨hhead, ih hrest⟩

/-- Every key of the map has a value. -/
theorem ne_nil_of_mem_groupEntries (entries : List Text) :
    ∀ group ∈ groupEntries entries, group.2 ≠ [] := by
  induction entries using List.reverseRecOn with
  | nil => exact fun group hgroup => absurd hgroup List.not_mem_nil
  | append_singleton entries entry ih =>
    rw [groupEntries_append]
    show ∀ group ∈ groupStep (groupEntries entries) entry, group.2 ≠ []
    rw [groupStep_eq]
    by_cases hkey : HasKey entry
    · rw [if_pos hkey]
      exact ne_nil_of_mem_addComment ih
    · rw [if_neg hkey]
      exact ih

/-! ## Flattening and grouping again -/

/-- Adding to a key that only later groups can have. -/
theorem addComment_append {key value : Text} {groups later : List (Text × List Text)}
    (h : key ∉ groups.map Prod.fst) :
    addComment key value (groups ++ later) = groups ++ addComment key value later := by
  induction groups with
  | nil => rfl
  | cons group groups ih =>
    obtain ⟨g, values⟩ := group
    rw [List.map_cons, List.mem_cons, not_or] at h
    rw [List.cons_append, addComment, if_neg fun he => h.1 he.symm, ih h.2]
    rfl

theorem groupStep_flat {key : Text} (hkey : '=' ∉ key) (hne : key ≠ []) (value : Text)
    (groups : List (Text × List Text)) :
    groupStep groups (key ++ '=' :: value) = addComment key value groups := by
  have hmem : '=' ∈ key ++ '=' :: value := by simp
  have hkeyOf := keyOf_flat hkey value
  have hhas : HasKey (key ++ '=' :: value) :=
    ⟨hmem, fun h => hne (hkeyOf.symm.trans ((keyOf_eq_nil hmem).mpr h))⟩
  have hvalue : valueOf (key ++ '=' :: value) = value := by
    have hsplit := keyOf_append_valueOf hmem
    rw [hkeyOf] at hsplit
    exact (List.cons_inj_right _).mp (List.append_cancel_left hsplit)
  rw [groupStep_eq, if_pos hhas, hkeyOf, hvalue]

/-- The entries of one group, one after the other. -/
theorem foldl_groupStep_flat {key : Text} (hkey : '=' ∉ key) (hne : key ≠ []) (values got : List Text)
    {groups : List (Text × List Text)} (h : key ∉ groups.map Prod.fst) :
    (values.map fun value => key ++ '=' :: value).foldl groupStep (groups ++ [(key, got)]) =
      groups ++ [(key, got ++ values)] := by
  induction values generalizing got with
  | nil => simp
  | cons value values ih =>
    rw [List.map_cons, List.foldl_cons, groupStep_flat hkey hne, addComment_append h, addComment,
      if_pos rfl, ih, List.append_assoc]
    rfl

/-- Flattening and grouping gives the map back when every key has a value. -/
theorem groupEntries_flattenGroups {groups : List (Text × List Text)} (h : ProperKeys groups)
    (hkeys : ∀ group ∈ groups, group.1 ≠ [] ∧ group.2 ≠ []) :
    groupEntries (flattenGroups groups) = groups := by
  induction groups using List.reverseRecOn with
  | nil => rfl
  | append_singleton groups group ih =>
    obtain ⟨key, values⟩ := group
    have hnodup := h.nodup
    rw [List.map_append, List.nodup_append] at hnodup
    have hnot : key ∉ groups.map Prod.fst := fun hmem =>
      hnodup.2.2 key hmem key (by simp) rfl
    have hproper : ProperKeys groups :=
      ⟨hnodup.1, fun group hgroup => h.no_separator group (List.mem_append_left _ hgroup)⟩
    have hkey : '=' ∉ key := h.no_separator (key, values) (by simp)
    obtain ⟨hne, hvalues⟩ := hkeys (key, values) (by simp)
    have hflat : flattenGroups (groups ++ [(key, values)]) =
        flattenGroups groups ++ values.map fun value => key ++ '=' :: value := by
      rw [flattenGroups, List.flatMap_append, List.flatMap_singleton]
      rfl
    rw [hflat, groupEntries_append,
      ih hproper fun group hgroup => hkeys group (List.mem_append_left _ hgroup)]
    cases values with
    | nil => exact absurd rfl hvalues
    | cons value values =>
      have hnew : addComment key value groups = groups ++ [(key, [value])] := by
        have hadd : addComment key value (groups ++ []) = groups ++ addComment key value [] :=
          addComment_append hnot
        rwa [List.append_nil] at hadd
      rw [List.map_cons, List.foldl_cons, groupStep_flat hkey hne, hnew,
        foldl_groupStep_flat hkey hne _ _ hnot]
      rfl

end JFlac.Metadata
