import Mathlib

/-!
# Calls into foreign code that calls back

A program hands control to a library function it cannot see into, and gets it back whenever the
library invokes one of the callbacks it registered. Seen from the program, one such call is a
tree: it is `done` with a result, or it makes a `request` and continues in a way that depends on
the answer. The library is then a family of trees, and nothing about its own state is assumed.

`run` executes a tree against the program's handlers. The rules below are what the program can
know about any call, whatever the library does: an assertion that every handler preserves holds
when the call returns (`run_invariant`), and a reflexive and transitive relation that every
handler respects relates the states before and after (`run_relation`).
-/

namespace JFlac.Lib

universe u v w x

/-- One call of a library function: the requests `Q` it makes, with answers of type `R`. -/
inductive Calls (Q : Type u) (R : Q → Type v) (α : Type w) where
  | done (result : α)
  | call (request : Q) (next : R request → Calls Q R α)

namespace Calls

variable {Q : Type u} {R : Q → Type v} {α : Type w} {σ : Type x}

/-- Executes a call, answering each request with the program's handler. -/
def run (handler : (q : Q) → σ → R q × σ) : Calls Q R α → σ → α × σ
  | done result, s => (result, s)
  | call q next, s => run handler (next (handler q s).1) (handler q s).2

variable {handler : (q : Q) → σ → R q × σ}

@[simp] theorem run_done (result : α) (s : σ) : run handler (done result) s = (result, s) := rfl

theorem run_call (q : Q) (next : R q → Calls Q R α) (s : σ) :
    run handler (call q next) s = run handler (next (handler q s).1) (handler q s).2 := rfl

/-- What every handler preserves holds when the call returns. -/
theorem run_invariant {P : σ → Prop} (hstep : ∀ q s, P s → P (handler q s).2)
    (c : Calls Q R α) {s : σ} (hs : P s) : P (run handler c s).2 := by
  induction c generalizing s with
  | done result => exact hs
  | call q next ih => exact ih _ (hstep q s hs)

/-- A reflexive and transitive relation that every handler respects relates the states before and
after the call. -/
theorem run_relation {P : σ → σ → Prop} (hrefl : ∀ s, P s s)
    (htrans : ∀ {s t u}, P s t → P t u → P s u) (hstep : ∀ q s, P s (handler q s).2)
    (c : Calls Q R α) (s : σ) : P s (run handler c s).2 :=
  run_invariant (fun q t ht => htrans ht (hstep q t)) c (hrefl s)

/-- Every request the call can make, whatever it is answered, satisfies `P`. -/
def Requests (P : Q → Prop) : Calls Q R α → Prop
  | done _ => True
  | call q next => P q ∧ ∀ r, Requests P (next r)

/-- The invariant rule for a call whose requests are limited: the handlers of other requests do not
matter. -/
theorem run_invariant_of_requests {P : σ → Prop} {A : Q → Prop}
    (hstep : ∀ q s, A q → P s → P (handler q s).2) (c : Calls Q R α) (hc : c.Requests A) {s : σ}
    (hs : P s) : P (run handler c s).2 := by
  induction c generalizing s with
  | done result => exact hs
  | call q next ih => exact ih _ (hc.2 _) (hstep q s hc.1 hs)

end Calls

end JFlac.Lib
