import Mathlib

/-!
# Cursors

A list with a current position, the state of an iterator that inserts and deletes where it stands.
Deleting moves to the previous element, inserting moves to the new one.
-/

namespace JFlac.Lib

/-- The elements before the current one, nearest first, the current one and those behind it. -/
structure Cursor (β : Type) where
  previous : List β
  current : β
  following : List β

namespace Cursor

variable {β : Type}

/-- The whole list. -/
def toList (c : Cursor β) : List β := c.previous.reverse ++ c.current :: c.following

/-- The same list from its first element. -/
def rewind (c : Cursor β) : Cursor β :=
  match c.previous.reverse with
  | [] => c
  | first :: rest => ⟨[], first, rest ++ c.current :: c.following⟩

/-- One element forward. -/
def next (c : Cursor β) : Option (Cursor β) :=
  match c.following with
  | [] => none
  | x :: rest => some ⟨c.current :: c.previous, x, rest⟩

/-- Without the current element, at the previous one. The first element stays. -/
def delete (c : Cursor β) : Option (Cursor β) :=
  match c.previous with
  | [] => none
  | x :: rest => some ⟨rest, x, c.following⟩

/-- With a new element behind the current one, at the new one. -/
def insertAfter (x : β) (c : Cursor β) : Cursor β := ⟨c.current :: c.previous, x, c.following⟩

@[simp] theorem following_insertAfter (x : β) (c : Cursor β) :
    (c.insertAfter x).following = c.following := rfl

/-- At the end of the list, inserting appends. -/
theorem toList_insertAfter {c : Cursor β} (h : c.following = []) (x : β) :
    (c.insertAfter x).toList = c.toList ++ [x] := by
  simp [toList, insertAfter, h]

/-- A cursor at the first element is rewound already. -/
theorem rewind_first (x : β) (rest : List β) : (⟨[], x, rest⟩ : Cursor β).rewind = ⟨[], x, rest⟩ := rfl

end Cursor

end JFlac.Lib
