import JFlac.Handles.Model
import Mathlib

/-!
# What the locked functions of a registry can do

One statement for each function that runs under the registry mutex. The system invariant is
derived from these alone; nothing above this file unfolds `register`, `acquire`,
`releaseReference` or `remove`.
-/

namespace JFlac.Handles

/-! ## Looking a handle up -/

theorem findEntryLocked_eq_some {entries : List Entry} {handle : ℤ} {e : Entry}
    (h : findEntryLocked entries handle = some e) : e ∈ entries ∧ e.handle = handle :=
  ⟨List.mem_of_find?_eq_some h, by simpa using List.find?_some h⟩

theorem findEntryLocked_eq_none {entries : List Entry} {handle : ℤ} :
    findEntryLocked entries handle = none ↔ ∀ e ∈ entries, e.handle ≠ handle := by
  simp [findEntryLocked, List.find?_eq_none]

/-- A linked handle is found, and with distinct handles it leads to its own node. -/
theorem findEntryLocked_of_mem {entries : List Entry} (hnd : (entries.map Entry.handle).Nodup)
    {e : Entry} (he : e ∈ entries) : findEntryLocked entries e.handle = some e := by
  cases hf : findEntryLocked entries e.handle with
  | none => exact absurd rfl (findEntryLocked_eq_none.mp hf e he)
  | some e' =>
    obtain ⟨hmem, hh⟩ := findEntryLocked_eq_some hf
    rw [List.inj_on_of_nodup_map hnd hmem he hh]

/-! ## Reserving a handle -/

theorem bumpHandle_of_lt {next : ℤ} (hpos : 0 < next) (h : next < longMax) :
    bumpHandle next = next + 1 := by
  rw [bumpHandle, longSucc_of_lt h, if_neg (by omega)]

theorem bumpHandle_longMax : bumpHandle longMax = firstValidSessionHandle := by decide

theorem bumpHandle_mem {next : ℤ} (hpos : 0 < next) (hmax : next ≤ longMax) :
    0 < bumpHandle next ∧ bumpHandle next ≤ longMax := by
  rcases lt_or_eq_of_le hmax with h | rfl
  · rw [bumpHandle_of_lt hpos h]; omega
  · decide

/-- The counter after `k` candidates: a walk around the cycle `1, …, LLONG_MAX`. -/
theorem bumpHandle_iterate (next : ℤ) (hpos : 0 < next) (hmax : next ≤ longMax) (k : ℕ) :
    bumpHandle^[k] next = (next - 1 + k) % longMax + 1 := by
  induction k with
  | zero =>
    have hlt : (next - 1) % longMax = next - 1 := Int.emod_eq_of_lt (by omega) (by omega)
    simp [hlt]
  | succ k ih =>
    rw [Function.iterate_succ_apply', ih, bumpHandle, longSucc, firstValidSessionHandle]
    simp only [longMax] at hmax ⊢
    push_cast
    split_ifs <;> omega

/-- A reserved handle is a positive `jlong` that no node carries, and the counter stays one. -/
theorem reserveHandleLocked_spec {entries : List Entry} {fuel : ℕ} {next handle next' : ℤ}
    (hpos : 0 < next) (hmax : next ≤ longMax)
    (h : reserveHandleLocked entries fuel next = some (handle, next')) :
    0 < handle ∧ handle ≤ longMax ∧ (∀ e ∈ entries, e.handle ≠ handle) ∧
      next' = bumpHandle handle := by
  induction fuel generalizing next with
  | zero => simp [reserveHandleLocked] at h
  | succ fuel ih =>
    rw [reserveHandleLocked] at h
    split at h
    · rename_i hfree
      obtain ⟨rfl, rfl⟩ : next = handle ∧ bumpHandle next = next' := by simpa using h
      exact ⟨hfree.1, hmax, findEntryLocked_eq_none.mp hfree.2, rfl⟩
    · have hb := bumpHandle_mem hpos hmax
      exact ih hb.1 hb.2 h

/-- A search that fails has seen every one of its candidates in use. -/
theorem mem_of_reserveHandleLocked_eq_none {entries : List Entry} {fuel : ℕ} {next : ℤ}
    (hpos : 0 < next) (hmax : next ≤ longMax)
    (h : reserveHandleLocked entries fuel next = none) :
    ∀ k < fuel, bumpHandle^[k] next ∈ entries.map Entry.handle := by
  induction fuel generalizing next with
  | zero => intro k hk; omega
  | succ fuel ih =>
    rw [reserveHandleLocked] at h
    split at h
    · simp at h
    · rename_i hused
      intro k hk
      cases k with
      | zero =>
        have hfound : findEntryLocked entries next ≠ none := fun hn => hused ⟨hpos, hn⟩
        obtain ⟨e, he⟩ := Option.ne_none_iff_exists'.mp hfound
        obtain ⟨hmem, hh⟩ := findEntryLocked_eq_some he
        exact List.mem_map.mpr ⟨e, hmem, hh⟩
      | succ k =>
        have hb := bumpHandle_mem hpos hmax
        exact ih hb.1 hb.2 h k (by omega)

/-- The `for (;;)` of `reserve_*_handle_locked` ends: with fewer nodes than positive `jlong`
values, one of the first `entries.length + 1` candidates is free. -/
theorem reserveHandleLocked_total {entries : List Entry} {next : ℤ} (hpos : 0 < next)
    (hmax : next ≤ longMax) (hlen : (entries.length : ℤ) < longMax) :
    (reserveHandleLocked entries (entries.length + 1) next).isSome := by
  rw [Option.isSome_iff_ne_none]
  intro hnone
  have hmem := mem_of_reserveHandleLocked_eq_none hpos hmax hnone
  -- the candidates are distinct, so there are more of them than nodes
  have hinj : Set.InjOn (fun k : ℕ => bumpHandle^[k] next)
      (Finset.range (entries.length + 1) : Set ℕ) := by
    intro i hi j hj hij
    simp only [Finset.coe_range, Set.mem_Iio] at hi hj
    simp only [bumpHandle_iterate next hpos hmax, longMax] at hij hlen
    omega
  have hsub : (Finset.range (entries.length + 1)).image (fun k : ℕ => bumpHandle^[k] next)
      ⊆ (entries.map Entry.handle).toFinset := by
    intro h hh
    obtain ⟨k, hk, rfl⟩ := Finset.mem_image.mp hh
    exact List.mem_toFinset.mpr (hmem k (Finset.mem_range.mp hk))
  have hcard := (Finset.card_le_card hsub).trans (List.toFinset_card_le _)
  rw [Finset.card_image_of_injOn hinj, Finset.card_range, List.length_map] at hcard
  omega

/-! ## The four operations -/

/-- What a registration does. -/
theorem register_spec {r r' : Registry} {id : ℕ} {handle : ℤ} (hpos : 0 < r.nextHandle)
    (hmax : r.nextHandle ≤ longMax) (h : register r id = some (handle, r')) :
    0 < handle ∧ handle ≤ longMax ∧ (∀ e ∈ r.entries, e.handle ≠ handle) ∧
      r' =
        { entries := ⟨handle, id⟩ :: r.entries
          nextHandle := bumpHandle handle
          sessions := Function.update r.sessions id
            { r.sessions id with
              handle := handle, referenceCount := 0, released := false, inUse := false } } := by
  rw [register, Option.map_eq_some_iff] at h
  obtain ⟨⟨handle', next'⟩, hres, heq⟩ := h
  obtain ⟨rfl, rfl⟩ := Prod.mk.inj heq
  obtain ⟨h0, h1, h2, rfl⟩ := reserveHandleLocked_spec hpos hmax hres
  exact ⟨h0, h1, h2, rfl⟩

/-- As long as the counter itself is unused, the first candidate is taken. -/
theorem register_handle_of_free {r r' : Registry} {id : ℕ} {handle : ℤ}
    (hpos : 0 < r.nextHandle) (hfree : ∀ e ∈ r.entries, e.handle ≠ r.nextHandle)
    (h : register r id = some (handle, r')) : handle = r.nextHandle := by
  rw [register, Option.map_eq_some_iff] at h
  obtain ⟨⟨handle', next'⟩, hres, heq⟩ := h
  obtain ⟨rfl, rfl⟩ := Prod.mk.inj heq
  rw [reserveHandleLocked, if_pos ⟨hpos, findEntryLocked_eq_none.mpr hfree⟩] at hres
  exact (Prod.mk.inj (Option.some.inj hres)).1.symm

/-- A successful acquire found a registered session that nobody uses. -/
theorem acquire_ok {inactive : String} {r r' : Registry} {handle : ℤ} {id : ℕ}
    (h : acquire inactive r handle = (.ok id, r')) :
    0 < handle ∧ (∃ e ∈ r.entries, e.handle = handle ∧ e.session = id) ∧
      (r.sessions id).released = false ∧ (r.sessions id).inUse = false ∧
      (r.sessions id).hasCodec = true ∧
      r' = r.setSession id
        { r.sessions id with
          referenceCount := (r.sessions id).referenceCount + 1, inUse := true } := by
  rw [acquire] at h
  split at h
  · rename_i hpos
    split at h
    · rename_i e he
      obtain ⟨hmem, hh⟩ := findEntryLocked_eq_some he
      dsimp only at h
      split at h
      · rename_i hidle
        obtain ⟨hid, rfl⟩ := Prod.mk.inj h
        obtain rfl : e.session = id := Except.ok.inj hid
        simp only [Bool.and_eq_true, Bool.not_eq_true'] at hidle
        exact ⟨hpos, ⟨e, hmem, hh, rfl⟩, hidle.1.1, hidle.1.2, hidle.2, rfl⟩
      · simp at h
    · simp at h
  · simp at h

/-- A refused acquire raises `IllegalStateException` and changes nothing. -/
theorem acquire_error {inactive : String} {r r' : Registry} {handle : ℤ} {t : Throwable}
    (h : acquire inactive r handle = (.error t, r')) :
    t = .illegalStateException inactive ∧ r' = r := by
  rw [acquire] at h
  split at h
  · split at h
    · dsimp only at h
      split at h
      · simp at h
      · simpa [eq_comm] using h
    · simpa [eq_comm] using h
  · simpa [eq_comm] using h

/-- A handle that is not linked is refused. -/
theorem acquire_of_not_found {inactive : String} {r : Registry} {handle : ℤ}
    (h : findEntryLocked r.entries handle = none) :
    acquire inactive r handle = (.error (.illegalStateException inactive), r) := by
  rw [acquire, h]
  split <;> rfl

/-- What dropping the only reference does. -/
theorem releaseReference_of_one {r : Registry} {id : ℕ}
    (h : (r.sessions id).referenceCount = 1) :
    releaseReference r id =
      ((r.sessions id).released,
        r.setSession id { r.sessions id with referenceCount := 0, inUse := false }) := by
  simp [releaseReference, h]

/-- A removal that finds nothing changes nothing. -/
theorem remove_of_not_found {r : Registry} {handle : ℤ}
    (h : handle ≤ 0 ∨ findEntryLocked r.entries handle = none) :
    remove r handle = (none, r) ∧ removedBy r handle = [] := by
  refine ⟨?_, ?_⟩
  · rw [remove]
    split
    · rfl
    · rename_i hpos
      rw [h.resolve_left hpos]
  · rw [removedBy, if_neg]
    rintro ⟨hpos, hsome⟩
    rcases h with h | h
    · omega
    · simp [h] at hsome

/-- A removal unlinks the node it finds, marks the session, and returns it when it is idle. -/
theorem remove_of_found {r : Registry} {handle : ℤ} {e : Entry} (hpos : 0 < handle)
    (he : findEntryLocked r.entries handle = some e) :
    removedBy r handle = [handle] ∧
      remove r handle =
        (if (r.sessions e.session).referenceCount = 0 then some e.session else none,
          { entries := r.entries.eraseP fun e => e.handle = handle
            nextHandle := r.nextHandle
            sessions := Function.update r.sessions e.session
              { r.sessions e.session with released := true } }) := by
  refine ⟨by simp [removedBy, hpos, he], ?_⟩
  rw [remove, if_neg (by omega), he]

/-- With distinct handles, unlinking by handle takes out exactly the node found. -/
theorem mem_unlinked {entries : List Entry} (hnd : (entries.map Entry.handle).Nodup) {handle : ℤ}
    {x : Entry} : x ∈ (entries.eraseP fun e => e.handle = handle) ↔
      x ∈ entries ∧ x.handle ≠ handle := by
  induction entries with
  | nil => simp
  | cons y ys ih =>
    rw [List.map_cons, List.nodup_cons] at hnd
    by_cases hy : y.handle = handle
    · rw [List.eraseP_cons_of_pos (by simpa using hy), List.mem_cons]
      constructor
      · intro hx
        refine ⟨.inr hx, fun hxh => hnd.1 ?_⟩
        rw [hy, ← hxh]
        exact List.mem_map_of_mem hx
      · rintro ⟨rfl | hx, hne⟩
        · exact absurd hy hne
        · exact hx
    · rw [List.eraseP_cons_of_neg (by simpa using hy), List.mem_cons, List.mem_cons, ih hnd.2]
      constructor
      · rintro (rfl | ⟨hx, hne⟩)
        · exact ⟨.inl rfl, hy⟩
        · exact ⟨.inr hx, hne⟩
      · rintro ⟨rfl | hx, hne⟩
        · exact .inl rfl
        · exact .inr ⟨hx, hne⟩

end JFlac.Handles
