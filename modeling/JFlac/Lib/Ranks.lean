import Mathlib

/-!
# Ranks

A list whose elements have kinds can be stored as one array per kind and, for each position, the kind
and the rank of the element among those of its kind. Looking the ranks up gives the list back.
-/

namespace JFlac.Lib

variable {α β κ : Type} [DecidableEq κ]

/-- The rank of each position, when `counter` positions of each kind came before. -/
def ranks : List κ → (κ → ℕ) → List ℕ
  | [], _ => []
  | kind :: kinds, counter =>
    counter kind :: ranks kinds (Function.update counter kind (counter kind + 1))

theorem length_ranks (kinds : List κ) (counter : κ → ℕ) :
    (ranks kinds counter).length = kinds.length := by
  induction kinds generalizing counter with
  | nil => rfl
  | cons kind kinds ih => rw [ranks, List.length_cons, List.length_cons, ih]

/-- Every rank resolves to the element at its position. -/
theorem getElem?_ranks (kind : α → κ) (arrays : κ → List α) (xs : List α) (counter : κ → ℕ)
    (h : ∀ k, (arrays k).drop (counter k) = xs.filter (kind · = k)) :
    List.Forall₂ (fun rank x => (arrays (kind x))[rank]? = some x) (ranks (xs.map kind) counter)
      xs := by
  induction xs generalizing counter with
  | nil => exact List.Forall₂.nil
  | cons x xs ih =>
    have hx := h (kind x)
    rw [List.filter_cons_of_pos (by simp)] at hx
    refine List.Forall₂.cons ?_ (ih _ fun k => ?_)
    · show (arrays (kind x))[counter (kind x)]? = some x
      rw [← List.head?_drop, hx]
      rfl
    · by_cases hk : k = kind x
      · subst hk
        rw [Function.update_self, ← List.drop_drop, hx]
        rfl
      · rw [Function.update_of_ne hk, h k, List.filter_cons_of_neg (by simpa using Ne.symm hk)]

/-! ## Corresponding lists -/

/-- Conditions that agree on corresponding elements agree on corresponding lists. -/
theorem forall₂_forall_iff {R : α → β → Prop} {P : α → Prop} {Q : β → Prop}
    (hiff : ∀ x y, R x y → (P x ↔ Q y)) {xs : List α} {ys : List β} (h : List.Forall₂ R xs ys) :
    (∀ x ∈ xs, P x) ↔ ∀ y ∈ ys, Q y := by
  induction h with
  | nil => simp
  | cons hxy _ ih => rw [List.forall_mem_cons, List.forall_mem_cons, hiff _ _ hxy, ih]

/-- Every element has a partner. -/
theorem exists_of_mem_forall₂ {R : α → β → Prop} {xs : List α} {ys : List β}
    (h : List.Forall₂ R xs ys) {x : α} (hx : x ∈ xs) : ∃ y, R x y := by
  induction h with
  | nil => cases hx
  | cons hxy _ ih =>
    rcases List.mem_cons.mp hx with rfl | hmem
    · exact ⟨_, hxy⟩
    · exact ih hmem

/-- Mapping there and back. -/
theorem map_map_eq_self {f : α → β} {g : β → α} {xs : List α} (h : ∀ x ∈ xs, g (f x) = x) :
    (xs.map f).map g = xs := by
  rw [List.map_map]
  exact (List.map_congr_left h).trans (List.map_id xs)

/-- Two lists that correspond to a third one, side by side. -/
theorem forall₂_zip {γ : Type} {R : α → γ → Prop} {S : β → γ → Prop} {as : List α} {bs : List β}
    {cs : List γ} (hR : List.Forall₂ R as cs) (hS : List.Forall₂ S bs cs) :
    List.Forall₂ (fun pair c => R pair.1 c ∧ S pair.2 c) (as.zip bs) cs := by
  induction hR generalizing bs with
  | nil =>
    cases hS
    exact List.Forall₂.nil
  | cons hac _ ih =>
    cases hS with
    | cons hbc hS => exact (ih hS).cons ⟨hac, hbc⟩

/-- When every element has a partner, lists of the partners exist. -/
theorem exists_forall₂ {R : α → β → Prop} {xs : List α} (h : ∀ x ∈ xs, ∃ y, R x y) :
    ∃ ys, List.Forall₂ R xs ys := by
  induction xs with
  | nil => exact ⟨[], List.Forall₂.nil⟩
  | cons x xs ih =>
    obtain ⟨y, hy⟩ := h x List.mem_cons_self
    obtain ⟨ys, hys⟩ := ih fun z hz => h z (List.mem_cons_of_mem x hz)
    exact ⟨y :: ys, hys.cons hy⟩

/-- Picking partners of the elements that a predicate selects. -/
theorem forall₂_filterMap {γ : Type} {R : α → β → Prop} {S : α → γ → Prop} {selects : α → Bool}
    {pick : β → Option γ}
    (hpick : ∀ x y, R x y → if selects x then ∃ z, pick y = some z ∧ S x z else pick y = none)
    {xs : List α} {ys : List β} (h : List.Forall₂ R xs ys) :
    List.Forall₂ S (xs.filter selects) (ys.filterMap pick) := by
  induction h with
  | nil => exact List.Forall₂.nil
  | cons hxy _ ih =>
    rename_i x y xs ys _
    have hp := hpick x y hxy
    cases hs : selects x with
    | true =>
      rw [hs, if_pos rfl] at hp
      obtain ⟨z, hz, hS⟩ := hp
      rw [List.filter_cons_of_pos hs, List.filterMap_cons_some hz]
      exact ih.cons hS
    | false =>
      rw [hs, if_neg (by simp)] at hp
      rw [List.filter_cons_of_neg (by simp [hs]), List.filterMap_cons_none hp]
      exact ih

end JFlac.Lib
