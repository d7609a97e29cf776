import JFlac.Handles.Lifecycle

/-!
# The invariant of a handle registry

`Inv` says that the linked list is a table of distinct positive handles, that every session is in
some stage of its lifecycle, and that, while no more than `LLONG_MAX` sessions were registered,
handles are handed out in sequence. `inv_step` shows that every atomic step keeps it, and
`stage_step` that the concrete step moves each session along `Stage.Next` or leaves it alone.
-/

namespace JFlac.Handles

variable {Activation : Type} [DecidableEq Activation]

/-- What holds between any two atomic sections. -/
structure Inv (s : System Activation) : Prop where
  counter_pos : 0 < s.registry.nextHandle
  counter_le : s.registry.nextHandle ≤ longMax
  handles_pos : ∀ e ∈ s.registry.entries, 0 < e.handle
  handles_nodup : (s.registry.entries.map Entry.handle).Nodup
  handle_owner : ∀ e ∈ s.registry.entries, (s.registry.sessions e.session).handle = e.handle
  handle_issued : ∀ e ∈ s.registry.entries, e.handle ∈ s.issued
  finishing_handle : ∀ a id handle, s.phase a = .finishing id handle →
    (s.registry.sessions id).handle = handle
  stage : ∀ id, ∃ st, InStage s id st ∧ (st = .leaked → longMax < s.nextId)
  removed : s.nextId ≤ longMax → ∀ handle ∈ s.removed, ∃ id < s.nextId,
    (s.registry.sessions id).handle = handle ∧ (s.registry.sessions id).released = true
  sequential : s.nextId ≤ longMax → (∀ id < s.nextId, (s.registry.sessions id).handle = id + 1) ∧
    s.registry.nextHandle = if (s.nextId : ℤ) = longMax then 1 else (s.nextId : ℤ) + 1

/-- How one step may change the stages: along the lifecycle, and a session gets lost only after
the handle counter has wrapped. -/
def StageStep (s s' : System Activation) : Prop :=
  ∀ id st, InStage s id st → ∃ st', InStage s' id st' ∧
    (st' = st ∨ Stage.Next st st' ∧ (st' = .leaked → longMax < s.nextId))

omit [DecidableEq Activation] in
theorem inv_initial : Inv (System.initial : System Activation) where
  counter_pos := by simp [System.initial, Registry.empty, firstValidSessionHandle]
  counter_le := by simp [System.initial, Registry.empty, firstValidSessionHandle, longMax]
  handles_pos := by simp [System.initial, Registry.empty]
  handles_nodup := by simp [System.initial, Registry.empty]
  handle_owner := by simp [System.initial, Registry.empty]
  handle_issued := by simp [System.initial, Registry.empty]
  finishing_handle := by simp [System.initial]
  stage id := by
    refine ⟨.unborn, ?_, by simp⟩
    constructor <;>
      simp [System.initial, Registry.empty, Session.opened, Stage.registered, Stage.released,
        Stage.references, Stage.destructions]
  removed := by simp [System.initial]
  sequential := by simp [System.initial, Registry.empty, firstValidSessionHandle, longMax]

omit [DecidableEq Activation] in
theorem Inv.stage_next {s s' : System Activation} (h : Inv s) (hst : StageStep s s')
    (hmono : s.nextId ≤ s'.nextId) :
    ∀ id, ∃ st, InStage s' id st ∧ (st = .leaked → longMax < s'.nextId) := by
  intro id
  obtain ⟨st, hin, hleak⟩ := h.stage id
  obtain ⟨st', hin', rfl | ⟨-, hlost⟩⟩ := hst id st hin
  · exact ⟨st', hin', fun heq => lt_of_lt_of_le (hleak heq) (by exact_mod_cast hmono)⟩
  · exact ⟨st', hin', fun heq => lt_of_lt_of_le (hlost heq) (by exact_mod_cast hmono)⟩

/-! ## Steps that register nothing

All of them keep the counter and the handle of every session, only unlink nodes, and only turn
`released` on. -/

/-- The table part of a step that registers nothing. -/
structure Shrinks (s s' : System Activation) : Prop where
  nodes : s'.registry.entries.Sublist s.registry.entries
  counter : s'.registry.nextHandle = s.registry.nextHandle
  nextId : s'.nextId = s.nextId
  issued : s'.issued = s.issued
  handles : ∀ id, (s'.registry.sessions id).handle = (s.registry.sessions id).handle
  released : ∀ id, (s.registry.sessions id).released = true →
    (s'.registry.sessions id).released = true

omit [DecidableEq Activation] in
theorem Inv.of_shrinks {s s' : System Activation} (h : Inv s) (hs : Shrinks s s')
    (hst : StageStep s s')
    (hfin : ∀ a id handle, s'.phase a = .finishing id handle →
      (s.registry.sessions id).handle = handle)
    (hrem : ∀ handle ∈ s'.removed, handle ∈ s.removed ∨ ∃ id < s.nextId,
      (s.registry.sessions id).handle = handle ∧ (s'.registry.sessions id).released = true) :
    Inv s' where
  counter_pos := by rw [hs.counter]; exact h.counter_pos
  counter_le := by rw [hs.counter]; exact h.counter_le
  handles_pos e he := h.handles_pos e (hs.nodes.subset he)
  handles_nodup := h.handles_nodup.sublist (hs.nodes.map _)
  handle_owner e he := by rw [hs.handles]; exact h.handle_owner e (hs.nodes.subset he)
  handle_issued e he := by rw [hs.issued]; exact h.handle_issued e (hs.nodes.subset he)
  finishing_handle a id handle hp := by rw [hs.handles]; exact hfin a id handle hp
  stage := h.stage_next hst hs.nextId.ge
  removed hle handle hmem := by
    rw [hs.nextId] at hle ⊢
    rcases hrem handle hmem with hold | ⟨id, hid, hh, hr⟩
    · obtain ⟨id, hid, hh, hr⟩ := h.removed hle handle hold
      exact ⟨id, hid, by rw [hs.handles]; exact hh, hs.released id hr⟩
    · exact ⟨id, hid, by rw [hs.handles]; exact hh, hr⟩
  sequential hle := by
    rw [hs.nextId] at hle ⊢
    rw [hs.counter]
    obtain ⟨hseq, hnext⟩ := h.sequential hle
    exact ⟨fun id hid => by rw [hs.handles]; exact hseq id hid, hnext⟩

/-- Rewriting one session record without touching its handle or un-releasing it. -/
theorem shrinks_rewrite {s : System Activation} {id : ℕ} {x : Session}
    (hh : x.handle = (s.registry.sessions id).handle)
    (hr : (s.registry.sessions id).released = true → x.released = true) (count : ℕ)
    (a : Activation) (p : Phase) : Shrinks s (s.rewrite id x count a p) where
  nodes := List.Sublist.refl _
  counter := rfl
  nextId := rfl
  issued := rfl
  handles i := by
    by_cases hi : i = id
    · subst hi; simpa using hh
    · rw [rewrite_session_of_ne s x count p hi]
  released i hi := by
    by_cases hne : i = id
    · subst hne; simpa using hr hi
    · rw [rewrite_session_of_ne s x count p hne]; exact hi

/-- After a rewrite every other session is where it was; the rewritten one has to be looked at. -/
theorem stageStep_rewrite {s : System Activation} {id : ℕ} {x : Session} {count : ℕ}
    {a : Activation} {p : Phase} (hold : ∀ i ≠ id, ¬ (s.phase a).Concerns i)
    (hnew : ∀ i ≠ id, ¬ p.Concerns i)
    (hself : ∀ st, InStage s id st → ∃ st', InStage (s.rewrite id x count a p) id st' ∧
      (st' = st ∨ Stage.Next st st' ∧ (st' = .leaked → longMax < s.nextId))) :
    StageStep s (s.rewrite id x count a p) := by
  intro i st hin
  by_cases hi : i = id
  · subst hi; exact hself st hin
  · have hphase := setPhase_frame
      (s := { s with registry := s.registry.setSession id x,
                     destroyed := Function.update s.destroyed id count })
      (hold i hi) (hnew i hi)
    exact ⟨st, hin.frame Iff.rfl Iff.rfl (rewrite_session_of_ne s x count p hi)
      (rewrite_destroyed_of_ne s x count p hi) (fun b => (hphase b).1) (fun b => (hphase b).2),
      .inl rfl⟩

/-- The phases about the rewritten session, from what they are for its own activation. -/
theorem rewrite_phases {s : System Activation} {id : ℕ} {x : Session} {count : ℕ}
    {a : Activation} {p : Phase} {P : Activation → Phase → Prop} (hself : P a p)
    (hother : ∀ b ≠ a, P b (s.phase b)) (b : Activation) :
    P b ((s.rewrite id x count a p).phase b) := by
  by_cases hb : b = a
  · subst hb; rw [rewrite_phase_self]; exact hself
  · rw [rewrite_phase_of_ne s x count p hb]; exact hother b hb

/-- A rewrite that fits into the lifecycle keeps the invariant. -/
theorem Inv.rewrite {s : System Activation} (h : Inv s) {id : ℕ} {x : Session} {count : ℕ}
    {a : Activation} {p : Phase} (hh : x.handle = (s.registry.sessions id).handle)
    (hr : (s.registry.sessions id).released = true → x.released = true)
    (hst : StageStep s (s.rewrite id x count a p))
    (hfin : ∀ i handle, p = .finishing i handle → (s.registry.sessions i).handle = handle) :
    Inv (s.rewrite id x count a p) := by
  refine h.of_shrinks (shrinks_rewrite hh hr count a p) hst (fun b i handle => ?_)
    fun handle hm => .inl hm
  exact rewrite_phases (P := fun _ q => q = .finishing i handle → _) (hfin i handle)
    (fun b _ => h.finishing_handle b i handle) b

/-! ## Acquiring -/

/-- An activation that was idle takes the reference of an idle session. -/
theorem inv_take {s : System Activation} (h : Inv s) {a : Activation} {id : ℕ} {p : Phase}
    (hidle : s.phase a = .idle)
    (hp : p = .holding id ∨ p = .finishing id (s.registry.sessions id).handle)
    (hnode : ∃ e ∈ s.registry.entries, e.session = id)
    (huse : (s.registry.sessions id).inUse = false) {x : Session}
    (hx : x = { s.registry.sessions id with
      referenceCount := (s.registry.sessions id).referenceCount + 1, inUse := true }) :
    Inv (s.rewrite id x (s.destroyed id) a p) ∧
      StageStep s (s.rewrite id x (s.destroyed id) a p) := by
  have hpid : ∀ i, p.Holds i ↔ i = id := by
    intro i
    rcases hp with rfl | rfl <;> simp [eq_comm]
  have hpd : ∀ i, p ≠ .destroying i := by
    intro i
    rcases hp with rfl | rfl <;> simp
  have hst : StageStep s (s.rewrite id x (s.destroyed id) a p) := by
    refine stageStep_rewrite (fun i _ => ?_) (fun i hi => ?_) fun st hin => ?_
    · simp [hidle, Phase.Concerns]
    · rintro (hh | hd)
      · exact hi ((hpid i).mp hh)
      · exact hpd i hd
    · have hrefs := hin.references_of_not_inUse huse
      obtain rfl := hin.eq_idle hnode hrefs
      refine ⟨.busy a false, ?_, .inr ⟨.acquire a, by simp⟩⟩
      subst hx
      constructor
      · simpa using hin.allocated
      · simpa [Stage.registered] using hnode
      · simpa [Stage.released] using hin.released
      · simp [Stage.references, hrefs]
      · simp [Stage.references]
      · simpa [Stage.destructions] using hin.codec
      · simpa [Stage.destructions] using hin.destroyed
      · refine rewrite_phases (P := fun b q => q.Holds id ↔ _) (by simp [hpid]) fun b hb => ?_
        simpa [Ne.symm hb] using hin.holders b
      · refine rewrite_phases (P := fun b q => q = .destroying id ↔ _) (by simp [hpd])
          fun b hb => ?_
        simpa using hin.destroyers b
  refine ⟨h.rewrite (by rw [hx]) (by rw [hx]; exact fun hr => hr) hst fun i handle hq => ?_, hst⟩
  rcases hp with rfl | rfl
  · simp at hq
  · obtain ⟨rfl, rfl⟩ : id = i ∧ (s.registry.sessions id).handle = handle := by simpa using hq
    rfl

/-! ## Releasing -/

/-- The operation leaves: a removed session is condemned, any other is idle again. -/
theorem inv_release {s : System Activation} (h : Inv s) {a : Activation} {id : ℕ}
    (hphase : s.phase a = .holding id) {p : Phase}
    (hp : p = if (s.registry.sessions id).released then .destroying id else .idle) {x : Session}
    (hx : x = { s.registry.sessions id with referenceCount := 0, inUse := false }) :
    Inv (s.rewrite id x (s.destroyed id) a p) ∧
      StageStep s (s.rewrite id x (s.destroyed id) a p) := by
  have hst : StageStep s (s.rewrite id x (s.destroyed id) a p) := by
    refine stageStep_rewrite (fun i hi => ?_) (fun i hi => ?_) fun st hin => ?_
    · simp [hphase, Phase.Concerns, Ne.symm hi]
    · subst hp
      split <;> simp [Phase.Concerns, Ne.symm hi]
    · obtain ⟨r, rfl⟩ := (hin.holders a).mp (by simp [hphase])
      have hother : ∀ b ≠ a, ¬ (s.phase b).Holds id := by
        intro b hb hh
        obtain ⟨r', hr'⟩ := (hin.holders b).mp hh
        exact hb (Stage.busy.inj hr').1.symm
      -- the flag that `busy` carries is the `released` field, so it decides where the step leads
      obtain ⟨st', hst', hnext, hp'⟩ : ∃ st' : Stage Activation,
          st' = (if r then .condemned a else .idle) ∧ Stage.Next (.busy a r) st' ∧
            p = if r then .destroying id else .idle := by
        rw [hin.released] at hp
        cases r with
        | false => exact ⟨.idle, rfl, .finish a, hp⟩
        | true => exact ⟨.condemned a, rfl, .finishRemoved a, hp⟩
      refine ⟨st', ?_, .inr ⟨hnext, by cases r <;> simp [hst']⟩⟩
      subst hx
      constructor
      · cases r <;> simpa [hst'] using hin.allocated
      · cases r <;> simpa [hst', Stage.registered] using hin.registered
      · cases r <;> simpa [hst', Stage.released] using hin.released
      · cases r <;> simp [hst', Stage.references]
      · cases r <;> simp [hst', Stage.references]
      · cases r <;> simpa [hst', Stage.destructions] using hin.codec
      · cases r <;> simpa [hst', Stage.destructions] using hin.destroyed
      · refine rewrite_phases (P := fun b q => q.Holds id ↔ _) ?_ fun b hb => ?_
        · cases r <;> simp [hst', hp']
        · cases r <;> simpa [hst'] using hother b hb
      · refine rewrite_phases (P := fun b q => q = .destroying id ↔ _) ?_ fun b hb => ?_
        · cases r <;> simp [hst', hp']
        · cases r <;> simpa [hst', Ne.symm hb] using hin.destroyers b
  refine ⟨h.rewrite (by rw [hx]) (by rw [hx]; exact fun hr => hr) hst fun i handle hq => ?_, hst⟩
  rw [hp] at hq
  split at hq <;> simp at hq

/-! ## Destroying -/

theorem inv_destroy {s : System Activation} (h : Inv s) {a : Activation} {id : ℕ}
    (hphase : s.phase a = .destroying id) {x : Session}
    (hx : x = { s.registry.sessions id with hasCodec := false }) :
    Inv (s.rewrite id x (s.destroyed id + 1) a .idle) ∧
      StageStep s (s.rewrite id x (s.destroyed id + 1) a .idle) := by
  have hst : StageStep s (s.rewrite id x (s.destroyed id + 1) a .idle) := by
    refine stageStep_rewrite (fun i hi => ?_) (fun i hi => ?_) fun st hin => ?_
    · simp [hphase, Phase.Concerns, Ne.symm hi]
    · simp [Phase.Concerns]
    · obtain rfl := (hin.destroyers a).mp hphase
      have hother : ∀ b ≠ a, s.phase b ≠ .destroying id := by
        intro b hb hd
        exact hb (Stage.condemned.inj ((hin.destroyers b).mp hd)).symm
      refine ⟨.destroyed, ?_, .inr ⟨.destroy a, by simp⟩⟩
      subst hx
      constructor
      · simpa using hin.allocated
      · simpa [Stage.registered] using hin.registered
      · simpa [Stage.released] using hin.released
      · simpa [Stage.references] using hin.references
      · simpa [Stage.references] using hin.inUse
      · simp [Stage.destructions]
      · simpa [Stage.destructions] using hin.destroyed
      · refine rewrite_phases (P := fun b q => q.Holds id ↔ _) (by simp) fun b hb => ?_
        simpa using hin.holders b
      · refine rewrite_phases (P := fun b q => q = .destroying id ↔ _) (by simp) fun b hb => ?_
        simpa using hother b hb
  exact ⟨h.rewrite (by rw [hx]) (by rw [hx]; exact fun hr => hr) hst fun i handle hq => by simp at hq, hst⟩

/-! ## Removing -/

/-- A node is unlinked, its session is marked, and one activation changes its phase. -/
def System.unlink (s : System Activation) (e : Entry) (a : Activation) (p : Phase) :
    System Activation :=
  { s with
    registry :=
      { entries := s.registry.entries.eraseP fun x => x.handle = e.handle
        nextHandle := s.registry.nextHandle
        sessions := Function.update s.registry.sessions e.session
          { s.registry.sessions e.session with released := true } }
    removed := s.removed ++ [e.handle] }.setPhase a p

theorem unlink_session_self (s : System Activation) (e : Entry) (a : Activation) (p : Phase) :
    (s.unlink e a p).registry.sessions e.session =
      { s.registry.sessions e.session with released := true } := Function.update_self ..

theorem unlink_session_of_ne (s : System Activation) {e : Entry} (a : Activation) (p : Phase)
    {i : ℕ} (h : i ≠ e.session) :
    (s.unlink e a p).registry.sessions i = s.registry.sessions i := Function.update_of_ne h ..

theorem shrinks_unlink (s : System Activation) (e : Entry) (a : Activation) (p : Phase) :
    Shrinks s (s.unlink e a p) where
  nodes := List.eraseP_sublist
  counter := rfl
  nextId := rfl
  issued := rfl
  handles i := by
    by_cases hi : i = e.session
    · subst hi; rw [unlink_session_self]
    · rw [unlink_session_of_ne s a p hi]
  released i hi := by
    by_cases hne : i = e.session
    · subst hne; rw [unlink_session_self]
    · rw [unlink_session_of_ne s a p hne]; exact hi

/-- After the unlinking exactly the nodes of the other sessions are left. -/
theorem Inv.exists_node_unlink {s : System Activation} (h : Inv s) {e : Entry}
    (he : e ∈ s.registry.entries) (a : Activation) (p : Phase) (i : ℕ) :
    (∃ x ∈ (s.unlink e a p).registry.entries, x.session = i) ↔
      i ≠ e.session ∧ ∃ x ∈ s.registry.entries, x.session = i := by
  have hmem : ∀ x, x ∈ (s.unlink e a p).registry.entries ↔
      x ∈ s.registry.entries ∧ x.handle ≠ e.handle := fun x => mem_unlinked h.handles_nodup
  constructor
  · rintro ⟨x, hx, rfl⟩
    obtain ⟨hx, hne⟩ := (hmem x).mp hx
    refine ⟨fun heq => hne ?_, x, hx, rfl⟩
    rw [← h.handle_owner x hx, ← h.handle_owner e he, heq]
  · rintro ⟨hne, x, hx, rfl⟩
    refine ⟨x, (hmem x).mpr ⟨hx, fun heq => hne ?_⟩, rfl⟩
    rw [List.inj_on_of_nodup_map h.handles_nodup hx he heq]

/-- The stage a session goes to when its node is unlinked and the activation `a` is told to
destroy it (`p = .destroying _`), or is not. -/
theorem inv_unlink {s : System Activation} (h : Inv s) {e : Entry} (he : e ∈ s.registry.entries)
    {a : Activation} {p : Phase}
    (hholds : ∀ i b, ((s.unlink e a p).phase b).Holds i ↔ (s.phase b).Holds i)
    (hdestroying : ∀ i b, (s.unlink e a p).phase b = .destroying i ↔
      s.phase b = .destroying i ∨ (i = e.session ∧ b = a ∧ p = .destroying e.session))
    (hcount : p = .destroying e.session → (s.registry.sessions e.session).referenceCount = 0)
    (hlost : p ≠ .destroying e.session → (s.registry.sessions e.session).referenceCount = 0 →
      longMax < s.nextId)
    (hfin : ∀ b i handle, (s.unlink e a p).phase b = .finishing i handle →
      (s.registry.sessions i).handle = handle) :
    Inv (s.unlink e a p) ∧ StageStep s (s.unlink e a p) := by
  have hnode : ∃ x ∈ s.registry.entries, x.session = e.session := ⟨e, he, rfl⟩
  have hst : StageStep s (s.unlink e a p) := by
    intro i st hin
    have hunlinked := h.exists_node_unlink he a p i
    by_cases hi : i = e.session
    · subst hi
      have hgone : ¬ ∃ x ∈ (s.unlink e a p).registry.entries, x.session = e.session :=
        fun hx => (hunlinked.mp hx).1 rfl
      by_cases hrefs : (s.registry.sessions e.session).referenceCount = 0
      · obtain rfl := hin.eq_idle hnode hrefs
        -- an idle session is condemned, unless nobody is told
        obtain ⟨st', hst', hnext, hlk⟩ : ∃ st' : Stage Activation,
            st' = (if p = .destroying e.session then .condemned a else .leaked) ∧
              Stage.Next .idle st' ∧ (st' = .leaked → longMax < s.nextId) := by
          by_cases hp : p = .destroying e.session
          · exact ⟨.condemned a, (if_pos hp).symm, .removeIdle a, by simp⟩
          · exact ⟨.leaked, (if_neg hp).symm, .lose, fun _ => hlost hp hrefs⟩
        refine ⟨st', ?_, .inr ⟨hnext, hlk⟩⟩
        have hreg : st'.registered = false ∧ st'.released = true ∧ st'.references = 0 ∧
            st'.destructions = 0 ∧ st' ≠ .unborn ∧ (∀ b r, st' ≠ .busy b r) ∧
            ∀ b, st' = .condemned b ↔ b = a ∧ p = .destroying e.session := by
          subst hst'
          split <;> simp_all [Stage.registered, Stage.released, Stage.references,
            Stage.destructions, eq_comm]
        obtain ⟨h1, h2, h3, h4, h5, h6, h7⟩ := hreg
        constructor
        · exact hin.allocated.trans (by simp [h5])
        · simpa [h1] using hgone
        · rw [unlink_session_self, h2]
        · rw [unlink_session_self, h3]; exact hrefs
        · rw [unlink_session_self, h3]; exact hin.inUse
        · rw [unlink_session_self, h4]; exact hin.codec
        · rw [h4]; exact hin.destroyed
        · intro b
          rw [hholds, hin.holders b]
          simp [h6]
        · intro b
          rw [hdestroying, hin.destroyers b, h7]
          simp
      · obtain ⟨b, rfl⟩ := hin.eq_busy hnode hrefs
        have hp : p ≠ .destroying e.session := fun hp => hrefs (hcount hp)
        refine ⟨.busy b true, ?_, .inr ⟨.removeBusy b, by simp⟩⟩
        constructor
        · exact hin.allocated.trans (by simp)
        · simpa [Stage.registered] using hgone
        · rw [unlink_session_self]; rfl
        · rw [unlink_session_self]; exact hin.references
        · rw [unlink_session_self]; exact hin.inUse
        · rw [unlink_session_self]; exact hin.codec
        · exact hin.destroyed
        · intro c
          rw [hholds, hin.holders c]
          simp
        · intro c
          rw [hdestroying, hin.destroyers c]
          simp [hp]
    · refine ⟨st, hin.frame Iff.rfl ?_ (unlink_session_of_ne s a p hi) rfl (hholds i) ?_, .inl rfl⟩
      · rw [hunlinked]; simp [hi]
      · intro b
        rw [hdestroying]; simp [hi]
  refine ⟨h.of_shrinks (shrinks_unlink s e a p) hst hfin fun handle hm => ?_, hst⟩
  rcases List.mem_append.mp hm with hm | hm
  · exact .inl hm
  · obtain rfl := List.mem_singleton.mp hm
    obtain ⟨st, hin, -⟩ := h.stage e.session
    have hborn : st ≠ .unborn := by
      rintro rfl
      simpa [Stage.registered] using hin.registered.mp hnode
    exact .inr ⟨e.session, hin.allocated.mpr hborn, h.handle_owner e he, by
      rw [unlink_session_self]⟩

/-! ## Registering -/

theorem inv_register {s : System Activation} (h : Inv s) {handle : ℤ} {r : Registry}
    (hreg : register s.registry s.nextId = some (handle, r)) :
    let s' := { s with registry := r, nextId := s.nextId + 1, issued := s.issued ++ [handle] }
    Inv s' ∧ StageStep s s' := by
  intro s'
  obtain ⟨hpos, hmax, hfree, rfl⟩ := register_spec h.counter_pos h.counter_le hreg
  -- the next allocation has no node yet
  have hunborn : ∀ st, InStage s s.nextId st → st = .unborn := by
    intro st hin
    by_contra hne
    exact absurd (hin.allocated.mpr hne) (lt_irrefl _)
  have hnew : ∀ e ∈ s.registry.entries, e.session ≠ s.nextId := by
    intro e he heq
    obtain ⟨st, hin, -⟩ := h.stage s.nextId
    obtain rfl := hunborn st hin
    simpa [Stage.registered] using hin.registered.mp ⟨e, he, heq⟩
  have hses : ∀ i ≠ s.nextId, s'.registry.sessions i = s.registry.sessions i :=
    fun i hi => Function.update_of_ne hi _ _
  have hself : s'.registry.sessions s.nextId = { s.registry.sessions s.nextId with
      handle := handle, referenceCount := 0, released := false, inUse := false } :=
    Function.update_self _ _ _
  have hst : StageStep s s' := by
    intro i st hin
    by_cases hi : i = s.nextId
    · subst hi
      obtain rfl := hunborn st hin
      refine ⟨.idle, ?_, .inr ⟨.register, by simp⟩⟩
      constructor
      · simp [s']
      · simp [s', Stage.registered]
      · rw [hself]; rfl
      · rw [hself]; rfl
      · rw [hself]; simp [Stage.references]
      · rw [hself]; exact hin.codec
      · exact hin.destroyed
      · intro b; simpa using hin.holders b
      · intro b; simpa using hin.destroyers b
    · refine ⟨st, hin.frame ?_ ?_ (hses i hi) rfl (fun _ => Iff.rfl) (fun _ => Iff.rfl), .inl rfl⟩
      · show i < s.nextId + 1 ↔ i < s.nextId
        omega
      · simp [s', Ne.symm hi]
  refine ⟨?_, hst⟩
  have hbump := bumpHandle_mem hpos hmax
  exact {
    counter_pos := hbump.1
    counter_le := hbump.2
    handles_pos := by
      intro e he
      rcases List.mem_cons.mp he with rfl | he
      · exact hpos
      · exact h.handles_pos e he
    handles_nodup := by
      refine List.nodup_cons.mpr ⟨fun hm => ?_, h.handles_nodup⟩
      obtain ⟨e, he, heq⟩ := List.mem_map.mp hm
      exact hfree e he heq
    handle_owner := by
      intro e he
      rcases List.mem_cons.mp he with rfl | he
      · show (s'.registry.sessions s.nextId).handle = handle
        rw [hself]
      · rw [hses _ (hnew e he)]; exact h.handle_owner e he
    handle_issued := by
      intro e he
      rcases List.mem_cons.mp he with rfl | he
      · simp [s']
      · exact List.mem_append_left _ (h.handle_issued e he)
    finishing_handle := by
      intro a i hd hp
      have hne : i ≠ s.nextId := by
        rintro rfl
        obtain ⟨st, hin, -⟩ := h.stage s.nextId
        obtain rfl := hunborn st hin
        have hholds : (s.phase a).Holds s.nextId := .inr ⟨hd, hp⟩
        simpa using (hin.holders a).mp hholds
      rw [hses i hne]; exact h.finishing_handle a i hd hp
    stage := h.stage_next hst (Nat.le_succ _)
    removed := by
      intro hle hd hm
      have hle' : (s.nextId : ℤ) ≤ longMax := by
        have : ((s.nextId + 1 : ℕ) : ℤ) ≤ longMax := hle
        push_cast at this; omega
      obtain ⟨i, hi, hh, hr⟩ := h.removed hle' hd hm
      refine ⟨i, Nat.lt_succ_of_lt hi, ?_⟩
      rw [hses i (by omega)]
      exact ⟨hh, hr⟩
    sequential := by
      intro hle
      have hle' : ((s.nextId + 1 : ℕ) : ℤ) ≤ longMax := hle
      push_cast at hle'
      obtain ⟨hseq, hnext⟩ := h.sequential (by omega)
      rw [if_neg (by omega)] at hnext
      -- all linked handles are below the counter, so the counter itself is free
      have hcounter : ∀ e ∈ s.registry.entries, e.handle ≠ s.registry.nextHandle := by
        intro e he
        obtain ⟨st, hin, -⟩ := h.stage e.session
        have hborn : st ≠ .unborn := by
          rintro rfl
          simpa [Stage.registered] using hin.registered.mp ⟨e, he, rfl⟩
        have hlt := hin.allocated.mpr hborn
        rw [← h.handle_owner e he, hseq _ hlt, hnext]
        omega
      obtain rfl := register_handle_of_free h.counter_pos hcounter hreg
      constructor
      · intro i hi
        by_cases hne : i = s.nextId
        · subst hne; rw [hself]; exact hnext
        · rw [hses i hne]
          exact hseq i (by have : i < s.nextId + 1 := hi; omega)
      · show bumpHandle s.registry.nextHandle = _
        rw [hnext]
        split
        · rename_i hlast
          have hlast' : (s.nextId : ℤ) + 1 = longMax := by exact_mod_cast hlast
          rw [hlast', bumpHandle_longMax, firstValidSessionHandle]
        · rename_i hlast
          have hlast' : (s.nextId : ℤ) + 1 ≠ longMax := fun hc => hlast (by exact_mod_cast hc)
          rw [bumpHandle_of_lt (by omega) (by omega)]
          rfl }

end JFlac.Handles
