import JFlac.Lib.Rows
import Mathlib

/-!
# Tables dealt from a flat list

A flat list that holds a table row by row is dealt out to the columns by two nested loops, which set
the cells one by one and count the entries they take. The result is a tabulation: the cell of
column `c` and row `r` is the entry `r * columns + c`.
-/

namespace JFlac.Lib

variable {α : Type*}

/-- The columns of a table, with the given cells. -/
def table (columns rows : ℕ) (cell : ℕ → ℕ → α) : List (List α) :=
  (List.range columns).map fun c => (List.range rows).map (cell c)

/-- Sets one cell of a table. -/
def setCell (columns : List (List α)) (c r : ℕ) (a : α) : List (List α) :=
  columns.modify c (·.set r a)

/-- The loop over the columns for one row: the table and the index of the next entry. -/
def dealRow (zero : α) (flat : List α) (columns row : ℕ) (s : List (List α) × ℕ) :
    List (List α) × ℕ :=
  (List.range columns).foldl
    (fun s column => (setCell s.1 column row (flat.getD s.2 zero), s.2 + 1)) s

/-- The loop over the rows, from a table of zeros. -/
def deal (zero : α) (flat : List α) (columns rows : ℕ) : List (List α) :=
  ((List.range rows).foldl (fun s row => dealRow zero flat columns row s)
    (List.replicate columns (List.replicate rows zero), 0)).1

/-- Reads a table row by row. -/
def interleave (zero : α) (columns : List (List α)) (rows : ℕ) : List α :=
  (List.range rows).flatMap fun r => columns.map (·.getD r zero)

section Table

variable {columns rows : ℕ} {cell cell' : ℕ → ℕ → α}

theorem table_congr (h : ∀ c < columns, ∀ r < rows, cell c r = cell' c r) :
    table columns rows cell = table columns rows cell' := by
  refine List.map_congr_left fun c hc => List.map_congr_left fun r hr => ?_
  exact h c (List.mem_range.mp hc) r (List.mem_range.mp hr)

theorem length_table : (table columns rows cell).length = columns := by simp [table]

theorem length_of_mem_table {column : List α} (h : column ∈ table columns rows cell) :
    column.length = rows := by
  obtain ⟨c, -, rfl⟩ := List.mem_map.mp h
  simp

theorem replicate_eq_table (zero : α) :
    List.replicate columns (List.replicate rows zero) = table columns rows fun _ _ => zero := by
  simp [table, List.map_const']

theorem setCell_table (c r : ℕ) (a : α) :
    setCell (table columns rows cell) c r a =
      table columns rows fun c' r' => if c' = c ∧ r' = r then a else cell c' r' := by
  refine List.ext_getElem (by simp [setCell, table]) fun i hi _ => ?_
  simp only [setCell, table, List.getElem_modify, List.getElem_map, List.getElem_range]
  by_cases hc : c = i
  · subst hc
    refine List.ext_getElem (by simp) fun j hj _ => ?_
    simp only [if_true, List.getElem_set, List.getElem_map, List.getElem_range, true_and]
    by_cases hr : r = j
    · rw [if_pos hr, if_pos hr.symm]
    · rw [if_neg hr, if_neg (Ne.symm hr)]
  · rw [if_neg hc]
    refine List.map_congr_left fun j _ => ?_
    rw [if_neg fun h => hc h.1.symm]

end Table

section Deal

variable (zero : α) (flat : List α) {columns rows : ℕ}

/-- After some columns of a row, their cells hold the next entries. -/
theorem dealRow_table (row i n : ℕ) (cell : ℕ → ℕ → α) :
    dealRow zero flat n row (table columns rows cell, i) =
      (table columns rows fun c r => if c < n ∧ r = row then flat.getD (i + c) zero else cell c r,
        i + n) := by
  induction n with
  | zero => simp [dealRow]
  | succ n ih =>
    rw [dealRow] at ih ⊢
    rw [List.range_succ, List.foldl_append, ih, List.foldl_cons, List.foldl_nil, setCell_table]
    refine Prod.ext (table_congr fun c _ r _ => ?_) (Nat.add_assoc i n 1)
    dsimp only
    by_cases hlast : c = n ∧ r = row
    · rw [if_pos hlast, if_pos (by omega), hlast.1]
    · rw [if_neg hlast]
      by_cases hbefore : c < n ∧ r = row
      · rw [if_pos hbefore, if_pos (by omega)]
      · rw [if_neg hbefore, if_neg (by omega)]

/-- The loops tabulate. -/
theorem deal_eq (columns rows : ℕ) :
    deal zero flat columns rows =
      table columns rows fun c r => flat.getD (r * columns + c) zero := by
  have hrows (m : ℕ) : (List.range m).foldl (fun s row => dealRow zero flat columns row s)
      (List.replicate columns (List.replicate rows zero), 0) =
        (table columns rows fun c r => if r < m then flat.getD (r * columns + c) zero else zero,
          m * columns) := by
    induction m with
    | zero => simp [replicate_eq_table]
    | succ m ih =>
      rw [List.range_succ, List.foldl_append, ih, List.foldl_cons, List.foldl_nil, dealRow_table]
      refine Prod.ext (table_congr fun c hc r _ => ?_) (Nat.succ_mul m columns).symm
      by_cases hlast : r = m
      · rw [if_pos ⟨hc, hlast⟩, if_pos (by omega), hlast]
      · rw [if_neg fun h => hlast h.2]
        by_cases hbefore : r < m
        · rw [if_pos hbefore, if_pos (by omega)]
        · rw [if_neg hbefore, if_neg (by omega)]
  rw [deal, hrows]
  exact table_congr fun c _ r hr => if_pos hr

theorem map_range_getD : (List.range flat.length).map (flat.getD · zero) = flat := by
  refine List.ext_getElem (by simp) fun i hi _ => ?_
  rw [List.length_map, List.length_range] at hi
  simp [hi]

/-- A flat list that is dealt out is read back row by row. -/
theorem interleave_deal (h : flat.length = rows * columns) :
    interleave zero (deal zero flat columns rows) rows = flat := by
  conv_rhs => rw [← map_range_getD zero flat, h, map_range_mul]
  rw [interleave, deal_eq, List.flatMap_def]
  congr 1
  refine List.map_congr_left fun r hr => ?_
  rw [table, List.map_map]
  refine List.map_congr_left fun c _ => ?_
  simp [List.mem_range.mp hr]

/-- The columns of two tables, one behind the other. -/
theorem deal_append {flat : List α} {more : List α} {rows' : ℕ} (h : flat.length = rows * columns) :
    deal zero (flat ++ more) columns (rows + rows') =
      List.zipWith (· ++ ·) (deal zero flat columns rows) (deal zero more columns rows') := by
  rw [deal_eq, deal_eq, deal_eq, table, table, table, List.zipWith_map, List.zipWith_self]
  refine List.map_congr_left fun c hc => ?_
  rw [List.range_add, List.map_append, List.map_map]
  congr 1
  · refine List.map_congr_left fun r hr => ?_
    have hlt : r * columns + c < flat.length := by
      have hr := List.mem_range.mp hr
      have hc := List.mem_range.mp hc
      calc r * columns + c < r * columns + columns := by omega
        _ = (r + 1) * columns := (Nat.succ_mul r columns).symm
        _ ≤ rows * columns := Nat.mul_le_mul_right columns hr
        _ = flat.length := h.symm
    rw [List.getD_append _ _ _ _ hlt]
  · refine List.map_congr_left fun r _ => ?_
    have hindex : (rows + r) * columns + c = flat.length + (r * columns + c) := by
      rw [h, Nat.add_mul, Nat.add_assoc]
    dsimp only [Function.comp]
    rw [hindex, List.getD_append_right _ _ _ _ (Nat.le_add_right _ _), Nat.add_sub_cancel_left]

theorem deal_nil (columns : ℕ) : deal zero flat columns 0 = List.replicate columns [] := by
  rw [deal_eq, table, List.range_zero]
  simp [List.map_const']

end Deal

end JFlac.Lib
