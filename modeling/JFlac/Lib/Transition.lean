import Mathlib

/-!
# Runs of a partial step function

A component that takes one atomic step after another is a function `step : σ → α → Option σ`:
the label says which step is attempted, and `none` means that the step is not enabled in the
state. `run` executes a list of labels.

Two induction rules package what is needed from runs:

* `run_invariant`: what every step preserves holds after every run;
* `run_history_invariant`: the same for a property that also talks about the labels executed so
  far, restricted to histories that satisfy a prefix-closed condition (a bound on the number of
  certain steps, say).
-/

namespace JFlac.Lib

variable {σ α : Type*} {step : σ → α → Option σ}

/-- Executes the labels in order; `none` when one of them is not enabled. -/
def run (step : σ → α → Option σ) : σ → List α → Option σ
  | s, [] => some s
  | s, a :: as => (step s a).bind fun s' => run step s' as

@[simp] theorem run_nil (s : σ) : run step s [] = some s := rfl

theorem run_cons (s : σ) (a : α) (as : List α) :
    run step s (a :: as) = (step s a).bind fun s' => run step s' as := rfl

theorem run_cons_eq_some {s s' : σ} {a : α} {as : List α} :
    run step s (a :: as) = some s' ↔ ∃ t, step s a = some t ∧ run step t as = some s' := by
  rw [run_cons, Option.bind_eq_some_iff]

theorem run_append {s : σ} (as bs : List α) :
    run step s (as ++ bs) = (run step s as).bind fun s' => run step s' bs := by
  induction as generalizing s with
  | nil => rfl
  | cons a as ih =>
    rw [List.cons_append, run_cons, run_cons]
    cases step s a with
    | none => rfl
    | some t => exact ih

/-- A run followed by one more step. -/
theorem run_concat_eq_some {s s' : σ} {as : List α} {a : α} :
    run step s (as ++ [a]) = some s' ↔ ∃ t, run step s as = some t ∧ step t a = some s' := by
  rw [run_append, Option.bind_eq_some_iff]
  simp only [run_cons_eq_some, run_nil, Option.some.injEq, exists_eq_right]

/-- What every enabled step preserves holds after every run. -/
theorem run_invariant {P : σ → Prop} (hstep : ∀ s a s', P s → step s a = some s' → P s')
    {s s' : σ} {as : List α} (hs : P s) (hrun : run step s as = some s') : P s' := by
  induction as generalizing s with
  | nil =>
    obtain rfl : s = s' := Option.some.inj hrun
    exact hs
  | cons a as ih =>
    obtain ⟨t, ht, hrest⟩ := run_cons_eq_some.mp hrun
    exact ih (hstep s a t hs ht) hrest

/-- An invariant that mentions the labels executed so far, over the runs whose label list
satisfies a prefix-closed condition `Q`. -/
theorem run_history_invariant {P : List α → σ → Prop} {Q : List α → Prop}
    (hok : ∀ as a, Q (as ++ [a]) → Q as) {s₀ : σ} (hinit : P [] s₀)
    (hstep : ∀ as a s s', Q (as ++ [a]) → P as s → step s a = some s' → P (as ++ [a]) s')
    {as : List α} {s : σ} (has : Q as) (hrun : run step s₀ as = some s) : P as s := by
  induction as using List.reverseRecOn generalizing s with
  | nil =>
    obtain rfl : s₀ = s := Option.some.inj hrun
    exact hinit
  | append_singleton as a ih =>
    obtain ⟨t, ht, hlast⟩ := run_concat_eq_some.mp hrun
    exact hstep as a t s has (ih (hok as a has) ht) hlast

end JFlac.Lib
