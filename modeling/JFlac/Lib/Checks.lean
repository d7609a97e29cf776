import Mathlib

/-!
# Sequences of checks

A check either passes or stops with an error. A sequence of checks passes when each of its members
does.
-/

namespace JFlac.Lib

variable {α β ε : Type}

/-- Running a check on every element, in order. -/
def forEach (check : α → Except ε Unit) : List α → Except ε Unit
  | [] => .ok ()
  | x :: xs =>
    match check x with
    | .error e => .error e
    | .ok () => forEach check xs

/-- One check and then another. -/
@[simp] theorem bind_eq_ok {first second : Except ε Unit} :
    (first >>= fun _ => second) = .ok () ↔ first = .ok () ∧ second = .ok () := by
  cases first with
  | error e =>
    constructor
    · nofun
    · rintro ⟨h, -⟩
      cases h
  | ok u => exact ⟨fun h => ⟨rfl, h⟩, fun h => h.2⟩

/-- A step and the steps that follow it. -/
theorem bind_eq_ok_iff {x : Except ε α} {f : α → Except ε β} {b : β} :
    x >>= f = .ok b ↔ ∃ a, x = .ok a ∧ f a = .ok b := by
  cases x with
  | error e =>
    constructor
    · nofun
    · rintro ⟨_, h, -⟩
      cases h
  | ok a =>
    constructor
    · exact fun h => ⟨a, rfl, h⟩
    · rintro ⟨_, h, h'⟩
      cases h
      exact h'

theorem ok_bind (a : α) (f : α → Except ε β) : (Except.ok a >>= f) = f a := rfl

/-- A check and the steps that follow it. -/
theorem unit_bind_eq_ok_iff {x : Except ε Unit} {f : Unit → Except ε β} {b : β} :
    x >>= f = .ok b ↔ x = .ok () ∧ f () = .ok b :=
  bind_eq_ok_iff.trans Unique.exists_iff

@[simp] theorem forEach_eq_ok {check : α → Except ε Unit} {xs : List α} :
    forEach check xs = .ok () ↔ ∀ x ∈ xs, check x = .ok () := by
  induction xs with
  | nil => simp [forEach]
  | cons x xs ih =>
    rw [List.forall_mem_cons, ← ih, forEach]
    cases check x with
    | error e => simp
    | ok u => simp

end JFlac.Lib
