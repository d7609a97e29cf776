import JFlac.Handles.Functions

/-!
# The life of one session

`Stage` is the abstract model of a registry: what a session is, seen from outside, with none of
the counters and flags that implement it. A session is registered and idle, then busy with one
operation at a time; a removal condemns it at once when it is idle and otherwise marks the
operation that has to destroy it. `Stage.Next` is the whole lifecycle.

`InStage s id st` says that the concrete fields of session `id` in the system `s` represent the
stage `st`. Since a step of the system touches one session and one activation, everything else is
a frame argument (`InStage.frame`).
-/

namespace JFlac.Handles

/-- The stages of a session. -/
inductive Stage (Activation : Type) where
  | unborn
  | idle
  | busy (a : Activation) (removed : Bool)
  | condemned (a : Activation)
  | destroyed
  /-- Removed without anybody being told to destroy it. -/
  | leaked
  deriving DecidableEq

namespace Stage

variable {Activation : Type}

def registered : Stage Activation → Bool
  | idle | busy _ false => true
  | _ => false

def released : Stage Activation → Bool
  | busy _ true | condemned _ | destroyed | leaked => true
  | _ => false

def references : Stage Activation → ℕ
  | busy _ _ => 1
  | _ => 0

def destructions : Stage Activation → ℕ
  | destroyed => 1
  | _ => 0

theorem not_released_of_registered {st : Stage Activation} (h : st.registered = true) :
    st.released = false := by
  match st, h with
  | idle, _ | busy _ false, _ => rfl

/-- The lifecycle. The last clause is the one that only a reused handle value makes possible. -/
inductive Next : Stage Activation → Stage Activation → Prop where
  | register : Next unborn idle
  | acquire (a : Activation) : Next idle (busy a false)
  | finish (a : Activation) : Next (busy a false) idle
  | removeBusy (a : Activation) : Next (busy a false) (busy a true)
  | removeIdle (a : Activation) : Next idle (condemned a)
  | finishRemoved (a : Activation) : Next (busy a true) (condemned a)
  | destroy (a : Activation) : Next (condemned a) destroyed
  | lose : Next idle leaked

end Stage

variable {Activation : Type}

/-- The activation is inside an operation on the session. -/
def Phase.Holds (p : Phase) (id : ℕ) : Prop :=
  p = .holding id ∨ ∃ handle, p = .finishing id handle

/-- The activation has something to do with the session. -/
def Phase.Concerns (p : Phase) (id : ℕ) : Prop := p.Holds id ∨ p = .destroying id

@[simp] theorem not_holds_idle (id : ℕ) : ¬ Phase.Holds .idle id := by
  simp [Phase.Holds]

@[simp] theorem holds_holding (i id : ℕ) : Phase.Holds (.holding i) id ↔ i = id := by
  simp [Phase.Holds]

@[simp] theorem holds_finishing (i id : ℕ) (h : ℤ) :
    Phase.Holds (.finishing i h) id ↔ i = id := by
  simp [Phase.Holds]

@[simp] theorem not_holds_destroying (i id : ℕ) : ¬ Phase.Holds (.destroying i) id := by
  simp [Phase.Holds]

/-- The concrete fields of a session represent a stage. -/
structure InStage (s : System Activation) (id : ℕ) (st : Stage Activation) : Prop where
  allocated : id < s.nextId ↔ st ≠ .unborn
  registered : (∃ e ∈ s.registry.entries, e.session = id) ↔ st.registered = true
  released : (s.registry.sessions id).released = st.released
  references : (s.registry.sessions id).referenceCount = st.references
  inUse : (s.registry.sessions id).inUse = decide (st.references = 1)
  codec : (s.registry.sessions id).hasCodec = decide (st.destructions = 0)
  destroyed : s.destroyed id = st.destructions
  holders : ∀ a, (s.phase a).Holds id ↔ ∃ r, st = .busy a r
  destroyers : ∀ a, s.phase a = .destroying id ↔ st = .condemned a

/-- A session keeps its stage when its record, its destruction count, its node and the phases
about it are what they were. -/
theorem InStage.frame {s s' : System Activation} {id : ℕ} {st : Stage Activation}
    (h : InStage s id st) (hid : id < s'.nextId ↔ id < s.nextId)
    (hnode : (∃ e ∈ s'.registry.entries, e.session = id) ↔
      ∃ e ∈ s.registry.entries, e.session = id)
    (hrec : s'.registry.sessions id = s.registry.sessions id)
    (hdes : s'.destroyed id = s.destroyed id)
    (hholds : ∀ a, (s'.phase a).Holds id ↔ (s.phase a).Holds id)
    (hdestroying : ∀ a, s'.phase a = .destroying id ↔ s.phase a = .destroying id) :
    InStage s' id st where
  allocated := hid.trans h.allocated
  registered := hnode.trans h.registered
  released := by rw [hrec]; exact h.released
  references := by rw [hrec]; exact h.references
  inUse := by rw [hrec]; exact h.inUse
  codec := by rw [hrec]; exact h.codec
  destroyed := hdes.trans h.destroyed
  holders a := (hholds a).trans (h.holders a)
  destroyers a := (hdestroying a).trans (h.destroyers a)

/-! ## Changing one phase -/

section
variable [DecidableEq Activation]

@[simp] theorem setPhase_registry (s : System Activation) (a : Activation) (p : Phase) :
    (s.setPhase a p).registry = s.registry := rfl

@[simp] theorem setPhase_nextId (s : System Activation) (a : Activation) (p : Phase) :
    (s.setPhase a p).nextId = s.nextId := rfl

@[simp] theorem setPhase_destroyed (s : System Activation) (a : Activation) (p : Phase) :
    (s.setPhase a p).destroyed = s.destroyed := rfl

@[simp] theorem setPhase_issued (s : System Activation) (a : Activation) (p : Phase) :
    (s.setPhase a p).issued = s.issued := rfl

@[simp] theorem setPhase_removed (s : System Activation) (a : Activation) (p : Phase) :
    (s.setPhase a p).removed = s.removed := rfl

@[simp] theorem setPhase_phase_self (s : System Activation) (a : Activation) (p : Phase) :
    (s.setPhase a p).phase a = p := Function.update_self ..

theorem setPhase_phase_of_ne (s : System Activation) {a b : Activation} (p : Phase) (h : b ≠ a) :
    (s.setPhase a p).phase b = s.phase b := Function.update_of_ne h ..

/-- A phase change that is not about the session, on either side, is invisible to it. -/
theorem setPhase_frame {s : System Activation} {a : Activation} {p : Phase} {id : ℕ}
    (hold : ¬ (s.phase a).Concerns id) (hnew : ¬ p.Concerns id) (b : Activation) :
    (((s.setPhase a p).phase b).Holds id ↔ (s.phase b).Holds id) ∧
      ((s.setPhase a p).phase b = .destroying id ↔ s.phase b = .destroying id) := by
  by_cases hb : b = a
  · subst hb
    rw [setPhase_phase_self]
    simp only [Phase.Concerns, not_or] at hold hnew
    exact ⟨iff_of_false hnew.1 hold.1, iff_of_false hnew.2 hold.2⟩
  · rw [setPhase_phase_of_ne s p hb]
    exact ⟨Iff.rfl, Iff.rfl⟩

/-- One session record, its destruction count and one phase are rewritten. -/
def System.rewrite (s : System Activation) (id : ℕ) (x : Session) (count : ℕ)
    (a : Activation) (p : Phase) : System Activation :=
  { s with
    registry := s.registry.setSession id x
    destroyed := Function.update s.destroyed id count }.setPhase a p

section
variable (s : System Activation) (id : ℕ) (x : Session) (count : ℕ) (a : Activation)
  (p : Phase)

@[simp] theorem rewrite_entries :
    (s.rewrite id x count a p).registry.entries = s.registry.entries := rfl

@[simp] theorem rewrite_nextHandle :
    (s.rewrite id x count a p).registry.nextHandle = s.registry.nextHandle := rfl

@[simp] theorem rewrite_nextId : (s.rewrite id x count a p).nextId = s.nextId := rfl

@[simp] theorem rewrite_issued : (s.rewrite id x count a p).issued = s.issued := rfl

@[simp] theorem rewrite_removed : (s.rewrite id x count a p).removed = s.removed := rfl

@[simp] theorem rewrite_session_self : (s.rewrite id x count a p).registry.sessions id = x :=
  Function.update_self ..

@[simp] theorem rewrite_destroyed_self : (s.rewrite id x count a p).destroyed id = count :=
  Function.update_self ..

@[simp] theorem rewrite_phase_self : (s.rewrite id x count a p).phase a = p :=
  Function.update_self ..

variable {id a}

theorem rewrite_session_of_ne {i : ℕ} (h : i ≠ id) :
    (s.rewrite id x count a p).registry.sessions i = s.registry.sessions i :=
  Function.update_of_ne h ..

theorem rewrite_destroyed_of_ne {i : ℕ} (h : i ≠ id) :
    (s.rewrite id x count a p).destroyed i = s.destroyed i := Function.update_of_ne h ..

theorem rewrite_phase_of_ne {b : Activation} (h : b ≠ a) :
    (s.rewrite id x count a p).phase b = s.phase b := Function.update_of_ne h ..

end

end

/-! ## Reading a stage off the fields -/

/-- A linked session that is not in use is idle. -/
theorem InStage.eq_idle {s : System Activation} {id : ℕ} {st : Stage Activation}
    (h : InStage s id st) (hnode : ∃ e ∈ s.registry.entries, e.session = id)
    (hrefs : (s.registry.sessions id).referenceCount = 0) : st = .idle := by
  have hreg := h.registered.mp hnode
  have hr := h.references.symm.trans hrefs
  match st, hreg, hr with
  | .idle, _, _ => rfl

/-- A linked session with a reference is busy and not removed. -/
theorem InStage.eq_busy {s : System Activation} {id : ℕ} {st : Stage Activation}
    (h : InStage s id st) (hnode : ∃ e ∈ s.registry.entries, e.session = id)
    (hrefs : (s.registry.sessions id).referenceCount ≠ 0) : ∃ a, st = .busy a false := by
  have hreg := h.registered.mp hnode
  have hr : st.references ≠ 0 := fun h0 => hrefs (h.references.trans h0)
  match st, hreg, hr with
  | .busy a false, _, _ => exact ⟨a, rfl⟩
  | .idle, _, hr => exact absurd rfl hr

/-- Not in use means no reference. -/
theorem InStage.references_of_not_inUse {s : System Activation} {id : ℕ}
    {st : Stage Activation} (h : InStage s id st)
    (huse : (s.registry.sessions id).inUse = false) :
    (s.registry.sessions id).referenceCount = 0 := by
  have hu := h.inUse.symm.trans huse
  rw [h.references]
  cases st <;> simp_all [Stage.references]

end JFlac.Handles
