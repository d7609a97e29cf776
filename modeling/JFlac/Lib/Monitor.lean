import Mathlib

/-!
# Re-entrant monitors

A monitor that the thread holding it may enter again. `Monitor.holds` counts how often a thread is
inside; `Balanced` says that these counts are the numbers of locked frames on the call stacks, and
is kept when a thread enters with a new locked frame, leaves with the last one, or changes its top
frame without crossing the monitor.
-/

namespace JFlac.Lib

variable {Thread : Type*} [DecidableEq Thread]

/-- The owner of a re-entrant monitor, with the number of times it entered again. -/
def Monitor (Thread : Type*) := Option (Thread × ℕ)

namespace Monitor

/-- Nobody is inside. -/
def free : Monitor Thread := none

/-- Enters; `none` when another thread is inside, so that the caller has to wait. -/
def enter (m : Monitor Thread) (t : Thread) : Option (Monitor Thread) :=
  match m with
  | none => some (some (t, 0))
  | some (u, n) => if u = t then some (some (t, n + 1)) else none

/-- The owner leaves once. -/
def exit (m : Monitor Thread) : Monitor Thread :=
  match m with
  | none => none
  | some (_, 0) => none
  | some (u, n + 1) => some (u, n)

/-- How often a thread is inside. -/
def holds (m : Monitor Thread) (t : Thread) : ℕ :=
  match m with
  | none => 0
  | some (u, n) => if u = t then n + 1 else 0

@[simp] theorem holds_free (t : Thread) : (free : Monitor Thread).holds t = 0 := rfl

variable {m m' : Monitor Thread} {t u : Thread}

/-- Two threads are never inside together. -/
theorem holds_eq_zero (h : m.holds t ≠ 0) (hne : u ≠ t) : m.holds u = 0 := by
  cases m with
  | none => rfl
  | some p =>
    obtain ⟨v, n⟩ := p
    by_cases hv : v = t
    · subst hv
      exact if_neg hne.symm
    · exact absurd (if_neg hv) h

/-- Only a monitor that no other thread holds can be entered. -/
theorem holds_of_enter (h : m.enter t = some m') (hne : u ≠ t) : m.holds u = 0 := by
  cases m with
  | none => rfl
  | some p =>
    obtain ⟨v, n⟩ := p
    by_cases hv : v = t
    · subst hv
      exact if_neg hne.symm
    · rw [enter, if_neg hv] at h
      cases h

/-- The thread that enters is inside once more. -/
theorem holds_enter (h : m.enter t = some m') (u : Thread) :
    m'.holds u = if u = t then m.holds t + 1 else m.holds u := by
  cases m with
  | none =>
    obtain rfl := Option.some.inj h
    by_cases hu : u = t
    · subst hu
      rw [if_pos rfl]
      exact if_pos rfl
    · rw [if_neg hu]
      exact if_neg (Ne.symm hu)
  | some p =>
    obtain ⟨v, n⟩ := p
    by_cases hv : v = t
    · subst hv
      rw [enter, if_pos rfl] at h
      obtain rfl := Option.some.inj h
      by_cases hu : u = v
      · subst hu
        simp only [holds, ↓reduceIte]
      · simp only [holds, if_neg hu, if_neg (Ne.symm hu)]
    · rw [enter, if_neg hv] at h
      cases h

/-- The owner that leaves is inside once less. -/
theorem holds_exit (h : m.holds t ≠ 0) (u : Thread) :
    m.exit.holds u = if u = t then m.holds t - 1 else m.holds u := by
  cases m with
  | none => exact absurd rfl h
  | some p =>
    obtain ⟨v, n⟩ := p
    have hv : v = t := by
      by_contra hv
      exact h (if_neg hv)
    subst hv
    by_cases hu : u = v
    · subst hu
      cases n <;> simp [exit, holds]
    · cases n <;> simp [exit, holds, hu, Ne.symm hu]

end Monitor

/-! ## Monitors and call stacks -/

variable {Frame : Type*} {locked : Frame → Bool} {m m' : Monitor Thread}
  {stack : Thread → List Frame} {t u : Thread} {f f' : Frame} {rest : List Frame}

/-- Every thread is inside as often as it has locked frames. -/
def Balanced (locked : Frame → Bool) (m : Monitor Thread) (stack : Thread → List Frame) : Prop :=
  ∀ t, m.holds t = (stack t).countP locked

namespace Balanced

theorem free : Balanced locked (Monitor.free : Monitor Thread) fun _ => [] := fun _ => rfl

/-- A locked frame keeps every other thread out. -/
theorem locked_eq_false (h : Balanced locked m stack) (hf : f ∈ stack t) (hlocked : locked f = true)
    (hne : u ≠ t) : ∀ g ∈ stack u, locked g = false := by
  have hinside : m.holds t ≠ 0 := by
    rw [h t]
    exact Nat.pos_iff_ne_zero.mp (List.countP_pos_iff.mpr ⟨f, hf, hlocked⟩)
  have hzero : (stack u).countP locked = 0 := by
    rw [← h u]
    exact Monitor.holds_eq_zero hinside hne
  intro g hg
  simpa using List.countP_eq_zero.mp hzero g hg

/-- While a thread enters, no other thread has a locked frame. -/
theorem locked_of_enter (h : Balanced locked m stack) (henter : m.enter t = some m')
    (hne : u ≠ t) : ∀ g ∈ stack u, locked g = false := by
  have hzero : (stack u).countP locked = 0 := by
    rw [← h u]
    exact Monitor.holds_of_enter henter hne
  intro g hg
  simpa using List.countP_eq_zero.mp hzero g hg

/-- A new frame that does not lock, or takes a monitor just entered. -/
theorem push (h : Balanced locked m stack)
    (hm : if locked f then m.enter t = some m' else m' = m) :
    Balanced locked m' (Function.update stack t (f :: stack t)) := by
  intro u
  cases hf : locked f with
  | true =>
    rw [hf, if_pos rfl] at hm
    rw [Monitor.holds_enter hm u]
    by_cases hu : u = t
    · subst hu
      rw [if_pos rfl, Function.update_self, List.countP_cons, h u, if_pos hf]
    · rw [if_neg hu, Function.update_of_ne hu, h u]
  | false =>
    rw [hf] at hm
    obtain rfl : m' = m := hm
    by_cases hu : u = t
    · subst hu
      rw [Function.update_self, List.countP_cons, h u, hf]
      rfl
    · rw [Function.update_of_ne hu, h u]

/-- The top frame makes way for one that locks alike. -/
theorem replace (h : Balanced locked m stack) (ht : stack t = f :: rest)
    (hsame : locked f' = locked f) : Balanced locked m (Function.update stack t (f' :: rest)) := by
  intro u
  by_cases hu : u = t
  · subst hu
    rw [Function.update_self, h u, ht, List.countP_cons, List.countP_cons, hsame]
  · rw [Function.update_of_ne hu, h u]

/-- The top frame goes, and leaves the monitor when it was locked. -/
theorem pop (h : Balanced locked m stack) (ht : stack t = f :: rest) :
    Balanced locked (if locked f then m.exit else m) (Function.update stack t rest) := by
  have hcount := h t
  rw [ht, List.countP_cons] at hcount
  intro u
  cases hf : locked f with
  | true =>
    rw [hf, if_pos rfl] at hcount
    rw [if_pos rfl, Monitor.holds_exit (by rw [hcount]; exact Nat.succ_ne_zero _) u]
    by_cases hu : u = t
    · subst hu
      rw [if_pos rfl, Function.update_self, hcount, Nat.add_sub_cancel]
    · rw [if_neg hu, Function.update_of_ne hu, h u]
  | false =>
    rw [hf] at hcount
    by_cases hu : u = t
    · subst hu
      rw [Function.update_self]
      exact hcount
    · rw [Function.update_of_ne hu]
      exact h u

end Balanced

end JFlac.Lib
