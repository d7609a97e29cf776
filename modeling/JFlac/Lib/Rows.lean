import Mathlib

/-!
# Lists of rows of equal width

A table stored row by row in one flat list. When every row has width `c`, cutting the table after
`n` rows is cutting the flat list after `n * c` entries. The window `[first, first + count)` of a
table is what remains when the rows before and behind it are cut off.
-/

namespace JFlac.Lib

variable {α : Type*}

/-- Every row has width `c`. -/
def HasWidth (c : ℕ) (rows : List (List α)) : Prop := ∀ row ∈ rows, row.length = c

namespace HasWidth

variable {c : ℕ} {rows rows' : List (List α)}

theorem nil : HasWidth c ([] : List (List α)) := by simp [HasWidth]

theorem append (h : HasWidth c rows) (h' : HasWidth c rows') : HasWidth c (rows ++ rows') := by
  intro row hrow
  exact (List.mem_append.mp hrow).elim (h row) (h' row)

theorem take (h : HasWidth c rows) (n : ℕ) : HasWidth c (rows.take n) :=
  fun row hrow => h row (List.mem_of_mem_take hrow)

theorem drop (h : HasWidth c rows) (n : ℕ) : HasWidth c (rows.drop n) :=
  fun row hrow => h row (List.mem_of_mem_drop hrow)

theorem of_cons {row : List α} (h : HasWidth c (row :: rows)) :
    row.length = c ∧ HasWidth c rows :=
  ⟨h row List.mem_cons_self, fun r hr => h r (List.mem_cons_of_mem _ hr)⟩

theorem length_flatten (h : HasWidth c rows) : rows.flatten.length = rows.length * c := by
  induction rows with
  | nil => simp
  | cons row rows ih =>
    obtain ⟨hrow, hrows⟩ := h.of_cons
    have htail := ih hrows
    rw [List.flatten_cons, List.length_append, hrow, htail, List.length_cons, Nat.succ_mul]
    omega

/-- Cutting the table is cutting the flat list at a multiple of the width. -/
theorem flatten_take (h : HasWidth c rows) (n : ℕ) :
    (rows.take n).flatten = rows.flatten.take (n * c) := by
  induction rows generalizing n with
  | nil => simp
  | cons row rows ih =>
    obtain ⟨hrow, hrows⟩ := h.of_cons
    cases n with
    | zero => simp
    | succ n =>
      have hsplit : (n + 1) * c = row.length + n * c := by rw [Nat.succ_mul, hrow]; omega
      rw [List.take_succ_cons, List.flatten_cons, List.flatten_cons, hsplit,
        List.take_length_add_append, ih hrows]

theorem flatten_drop (h : HasWidth c rows) (n : ℕ) :
    (rows.drop n).flatten = rows.flatten.drop (n * c) := by
  have hcut : (rows.take n).flatten ++ (rows.drop n).flatten = rows.flatten := by
    rw [← List.flatten_append, List.take_append_drop]
  have hsame : rows.flatten.take (n * c) ++ rows.flatten.drop (n * c) = rows.flatten :=
    List.take_append_drop _ _
  rw [h.flatten_take n] at hcut
  exact List.append_cancel_left (hcut.trans hsame.symm)

/-- One row, cut out of the flat list. -/
theorem getElem_eq (h : HasWidth c rows) {n : ℕ} (hn : n < rows.length) :
    (rows.flatten.drop (n * c)).take c = rows[n] := by
  have hone : 1 * c = c := Nat.one_mul c
  rw [← h.flatten_drop n, ← hone, ← (h.drop n).flatten_take 1, List.drop_eq_getElem_cons hn,
    List.take_succ_cons, List.take_zero, List.flatten_cons, List.flatten_nil, List.append_nil]

end HasWidth

/-- Tabulating a table of `m` rows of width `c` row by row. -/
theorem map_range_mul (f : ℕ → α) (m c : ℕ) :
    (List.range (m * c)).map f =
      ((List.range m).map fun j => (List.range c).map fun k => f (j * c + k)).flatten := by
  induction m with
  | zero => simp
  | succ m ih =>
    rw [Nat.succ_mul, List.range_add, List.map_append, ih, List.map_map, List.range_succ,
      List.map_append, List.flatten_append]
    simp

/-! ## Windows -/

/-- The entries from position `first` to before position `last`. -/
def window (xs : List α) (first last : ℕ) : List α := (xs.drop first).take (last - first)

section Window

variable {xs : List α} {a b c : ℕ}

theorem length_window (h : b ≤ xs.length) : (window xs a b).length = b - a := by
  rw [window, List.length_take, List.length_drop]
  omega

@[simp] theorem window_self : window xs a a = [] := by rw [window, Nat.sub_self, List.take_zero]

theorem window_zero : window xs 0 b = xs.take b := by rw [window, List.drop_zero, Nat.sub_zero]

theorem window_zero_length : window xs 0 xs.length = xs := by rw [window_zero, List.take_length]

/-- Adjacent windows make one window. -/
theorem window_append (hab : a ≤ b) (hbc : b ≤ c) :
    window xs a b ++ window xs b c = window xs a c := by
  have hrest : (xs.drop a).drop (b - a) = xs.drop b := by
    rw [List.drop_drop, Nat.add_sub_cancel' hab]
  have hsum : c - a = b - a + (c - b) := by omega
  rw [window, window, window, hsum, List.take_add, hrest]

/-- Cutting a window in two. -/
theorem take_window (hab : a ≤ b) (hbc : b ≤ c) (hc : c ≤ xs.length) :
    (window xs a c).take (b - a) = window xs a b := by
  rw [← window_append hab hbc]
  exact List.take_left' (length_window (Nat.le_trans hbc hc))

theorem drop_window (hab : a ≤ b) (hbc : b ≤ c) (hc : c ≤ xs.length) :
    (window xs a c).drop (b - a) = window xs b c := by
  rw [← window_append hab hbc]
  exact List.drop_left' (length_window (Nat.le_trans hbc hc))

theorem window_eq_nil_iff (h : b ≤ xs.length) : window xs a b = [] ↔ b ≤ a := by
  rw [← List.length_eq_zero_iff, length_window h]
  omega

end Window

end JFlac.Lib
