import JFlac.Handles.Safety
import JFlac.Sessions.Pull

/-!
# Who has the handle and the native session

The abstract model of a pull session. `Custody` joins the two ownership protocols: the claim on the
handle in the wrapper, and the references to the session in the registry. `Inv` connects a custody
to a state of the system: what the atomic and the registry record say, which frames each thread may
have on its stack, and what was freed so far.
-/

namespace JFlac.Sessions.Pull

open JFlac.Handles JFlac.Lib

/-! ## Interleavings -/

/-- What the calls on other sessions do to the registry. Allocations are told apart by number, and
a handle belongs to them when it does not lead to this session. -/
inductive OtherUse (id : ℕ) (r : Registry) : Registry → Prop
  | register (other : ℕ) (handle : ℤ) (r' : Registry) (hother : other ≠ id)
      (h : registerDecodeSession r other = some (handle, r')) : OtherUse id r r'
  | acquire (handle : ℤ)
      (hother : ∀ e, findEntryLocked r.entries handle = some e → e.session ≠ id) :
      OtherUse id r (acquireDecodeSession r handle).2
  | releaseReference (other : ℕ) (hother : other ≠ id) :
      OtherUse id r (releaseDecodeSessionReference r other).2
  | remove (handle : ℤ) (hother : ∀ e, findEntryLocked r.entries handle = some e → e.session ≠ id) :
      OtherUse id r (removeDecodeSession r handle).2
  | destroy (other : ℕ) (hother : other ≠ id) :
      OtherUse id r (r.setSession other { r.sessions other with hasCodec := false })

variable {Thread : Type}

/-- A step that can happen: the Cleaner runs once the session is unreachable, so that no call is in
flight, and other sessions keep to their own records. -/
def Step [DecidableEq Thread] (id : ℕ) (s : System Thread) (action : Action Thread)
    (s' : System Thread) : Prop :=
  step s action = some s' ∧
    match action with
    | .cleanerRun _ => ∀ t, s.stack t = []
    | .others registry => OtherUse id s.registry registry
    | _ => True

/-- The states that some interleaving leads to. -/
inductive Reachable [DecidableEq Thread] (id : ℕ) (s₀ : System Thread) : System Thread → Prop
  | initial : Reachable id s₀ s₀
  | step (s s' : System Thread) (action : Action Thread) (h : Reachable id s₀ s)
      (hstep : Step id s action s') : Reachable id s₀ s'

/-- The registry right after `register_decode_session` has taken in the session, in any history of
the registry. -/
def RegisteredIn (handle : ℤ) (id : ℕ) (registry : Registry) : Prop :=
  ∃ (acts : List (Handles.Action ℕ)) (before : Handles.System ℕ),
    run (Handles.step .decoder) .initial acts = some before ∧ id = before.nextId ∧
      registerDecodeSession before.registry id = some (handle, registry)

/-! ## Custody -/

/-- Where the handle is, and who works on the native session. -/
inductive Custody (Thread : Type) where
  /-- The handle is in the atomic. -/
  | slot (reader : Option Thread)
  /-- A thread has claimed the handle, as the wrapper or (`sweep`) as the Cleaner action. -/
  | held (t : Thread) (sweep : Bool) (reader : Option Thread)
  /-- The release by the Cleaner action has failed. -/
  | abandoned
  /-- The handle is released, and a native read still has the session. -/
  | removed (reader : Thread)
  /-- A thread was told to destroy the session. -/
  | condemned (t : Thread)
  | destroyed

namespace Custody

variable (handle : ℤ) (c : Custody Thread)

/-- What the atomic holds. -/
def slotValue (handle : ℤ) : Custody Thread → ℤ
  | slot _ => handle
  | _ => 0

/-- The thread whose native read has a reference to the session. -/
def reader : Custody Thread → Option Thread
  | slot reader | held _ _ reader => reader
  | removed reader => some reader
  | _ => none

/-- The handle has been released. -/
def isReleased : Custody Thread → Bool
  | removed _ | condemned _ | destroyed => true
  | _ => false

def isDestroyed : Custody Thread → Bool
  | destroyed => true
  | _ => false

/-- The Cleaner action is still to come. -/
def Retries : Custody Thread → Prop
  | slot _ | held _ false _ => True
  | _ => False

/-- The handle is in the atomic. -/
def InSlot : Custody Thread → Prop
  | slot _ => True
  | _ => False

/-- The handle was deactivated, and nobody is going to release it. -/
def Stuck (active : Bool) : Custody Thread → Prop
  | slot _ => active = false
  | abandoned => True
  | _ => False

/-- The thread may be inside the monitor with a frame of its own. -/
def Grants (t : Thread) : Custody Thread → Prop
  | held u sweep _ => u = t ∧ sweep = false
  | abandoned => False
  | _ => True

/-- The two custodies say the same about one thread. -/
structure SameFor (t : Thread) (c c' : Custody Thread) : Prop where
  reader : c.reader = some t ↔ c'.reader = some t
  held : ∀ sweep, (∃ r, c = held t sweep r) ↔ ∃ r, c' = held t sweep r
  condemned : c = condemned t ↔ c' = condemned t
  released : c.isReleased = true → c'.isReleased = true

theorem SameFor.refl (t : Thread) : c.SameFor t c := ⟨.rfl, fun _ => .rfl, .rfl, id⟩

variable {t u : Thread} {c' : Custody Thread} {r : Option Thread} {sweep : Bool}

/-- The claim is the claiming thread's alone. -/
theorem sameFor_claim (hu : u ≠ t) (sweep : Bool) : (slot r).SameFor u (held t sweep r) := by
  refine ⟨.rfl, fun _ => ⟨nofun, ?_⟩, ⟨nofun, nofun⟩, nofun⟩
  rintro ⟨r', hr'⟩
  exact absurd (held.inj hr').1.symm hu

/-- What a thread does with the handle it holds does not concern the others. -/
theorem sameFor_of_held (hu : u ≠ t) (hreader : r = some u ↔ c'.reader = some u)
    (hheld : ∀ sweep r, c' ≠ held u sweep r) (hcondemned : c' ≠ condemned u) :
    (held t sweep r).SameFor u c' := by
  refine ⟨hreader, fun _ => ⟨?_, ?_⟩, ⟨nofun, fun hc => absurd hc hcondemned⟩, nofun⟩
  · rintro ⟨r', hr'⟩
    exact absurd (held.inj hr').1.symm hu
  · rintro ⟨r', hr'⟩
    exact absurd hr' (hheld _ r')

/-- A condemned session concerns the thread that destroys it. -/
theorem condemned_ne (hu : u ≠ t) : (condemned t : Custody Thread) ≠ condemned u :=
  fun hc => hu (condemned.inj hc).symm

end Custody

/-! ## The registry record -/

/-- What the registry says about the session. -/
structure Registered (handle : ℤ) (id : ℕ) (released busy : Bool) (r : Registry) : Prop where
  handle_pos : 0 < handle
  counter_pos : 0 < r.nextHandle
  counter_le : r.nextHandle ≤ longMax
  nodup : (r.entries.map Entry.handle).Nodup
  linked : ∀ e ∈ r.entries, e.session = id → e.handle = handle ∧ released = false
  found : released = false → ⟨handle, id⟩ ∈ r.entries
  released_eq : (r.sessions id).released = released
  references : (r.sessions id).referenceCount = if busy then 1 else 0
  inUse : (r.sessions id).inUse = busy

namespace Registered

variable {handle : ℤ} {id : ℕ} {released busy : Bool} {r r' : Registry}

/-- A session that was just registered. -/
theorem of_registeredIn (h : RegisteredIn handle id r) : Registered handle id false false r := by
  obtain ⟨acts, before, hrun, rfl, hregister⟩ := h
  have hinv := (inv_run hrun).1
  have hafter := (inv_register hinv hregister).1
  obtain ⟨hpos, -, hfree, rfl⟩ := register_spec hinv.counter_pos hinv.counter_le hregister
  have hself := Function.update_self before.nextId
    { before.registry.sessions before.nextId with
      handle := handle, referenceCount := 0, released := false, inUse := false }
    before.registry.sessions
  refine ⟨hpos, hafter.counter_pos, hafter.counter_le, hafter.handles_nodup, fun e he hid => ?_,
    fun _ => List.mem_cons_self, ?_, ?_, ?_⟩
  · have howner := hafter.handle_owner e he
    rw [hid] at howner
    refine ⟨howner.symm.trans ?_, rfl⟩
    exact congrArg Session.handle hself
  · exact congrArg Session.released hself
  · exact congrArg Session.referenceCount hself
  · exact congrArg Session.inUse hself

/-- A linked session is found under its handle. -/
theorem find (h : Registered handle id false busy r) :
    findEntryLocked r.entries handle = some ⟨handle, id⟩ :=
  findEntryLocked_of_mem h.nodup (h.found rfl)

/-- Rewriting the record of another session. -/
theorem setSession_of_ne (h : Registered handle id released busy r) {other : ℕ}
    (hother : other ≠ id)
    (x : Session) : Registered handle id released busy (r.setSession other x) := by
  have hsame : (r.setSession other x).sessions id = r.sessions id :=
    Function.update_of_ne hother.symm _ _
  refine ⟨h.handle_pos, h.counter_pos, h.counter_le, h.nodup, h.linked, h.found, ?_, ?_, ?_⟩
  · rw [hsame, h.released_eq]
  · rw [hsame, h.references]
  · rw [hsame, h.inUse]

/-- Rewriting the record of the session itself. -/
theorem setSession (h : Registered handle id released busy r) (x : Session) {busy' : Bool}
    (hreleased : x.released = released) (hreferences : x.referenceCount = if busy' then 1 else 0)
    (hinUse : x.inUse = busy') : Registered handle id released busy' (r.setSession id x) := by
  have hself : (r.setSession id x).sessions id = x := Function.update_self _ _ _
  refine ⟨h.handle_pos, h.counter_pos, h.counter_le, h.nodup, h.linked, h.found, ?_, ?_, ?_⟩
  · rw [hself, hreleased]
  · rw [hself, hreferences]
  · rw [hself, hinUse]

/-- Unlinking the node of another session. -/
theorem unlink_of_ne (h : Registered handle id released busy r) {other : ℤ} {e : Entry}
    (he : findEntryLocked r.entries other = some e) (hother : e.session ≠ id) (x : Session) :
    Registered handle id released busy
      { entries := r.entries.eraseP fun e => e.handle = other
        nextHandle := r.nextHandle
        sessions := Function.update r.sessions e.session x } := by
  have hsame : Function.update r.sessions e.session x id = r.sessions id :=
    Function.update_of_ne hother.symm _ _
  refine ⟨h.handle_pos, h.counter_pos, h.counter_le, ?_, fun e' he' => ?_, fun hreleased => ?_, ?_,
    ?_, ?_⟩
  · exact h.nodup.sublist (List.eraseP_sublist.map _)
  · exact h.linked e' ((mem_unlinked h.nodup).mp he').1
  · subst hreleased
    refine (mem_unlinked h.nodup).mpr ⟨h.found rfl, fun hsame => ?_⟩
    subst hsame
    obtain rfl := Option.some.inj (he.symm.trans h.find)
    exact hother rfl
  · exact (congrArg Session.released hsame).trans h.released_eq
  · exact (congrArg Session.referenceCount hsame).trans h.references
  · exact (congrArg Session.inUse hsame).trans h.inUse

/-- The calls on other sessions leave this one alone. -/
theorem of_otherUse (h : Registered handle id released busy r) (hother : OtherUse id r r') :
    Registered handle id released busy r' := by
  cases hother with
  | register other new r' hne hregister =>
    obtain ⟨hpos, hmax, hfree, rfl⟩ := register_spec h.counter_pos h.counter_le hregister
    have hsame : Function.update r.sessions other
        { r.sessions other with
          handle := new, referenceCount := 0, released := false, inUse := false } id =
        r.sessions id := Function.update_of_ne hne.symm _ _
    have hbump := bumpHandle_mem hpos hmax
    refine ⟨h.handle_pos, hbump.1, hbump.2, ?_, fun e he hid => ?_, fun hreleased => ?_, ?_, ?_, ?_⟩
    · rw [List.map_cons, List.nodup_cons]
      refine ⟨fun hmem => ?_, h.nodup⟩
      obtain ⟨e, he, heq⟩ := List.mem_map.mp hmem
      exact hfree e he heq
    · rcases List.mem_cons.mp he with rfl | he
      · exact absurd hid hne
      · exact h.linked e he hid
    · exact List.mem_cons_of_mem _ (h.found hreleased)
    · exact (congrArg Session.released hsame).trans h.released_eq
    · exact (congrArg Session.referenceCount hsame).trans h.references
    · exact (congrArg Session.inUse hsame).trans h.inUse
  | acquire other hne =>
    cases hacquire : acquireDecodeSession r other with
    | mk result r' =>
      cases result with
      | error e =>
        obtain ⟨-, rfl⟩ := acquire_error hacquire
        exact h
      | ok i =>
        obtain ⟨-, ⟨e, he, rfl, rfl⟩, -, -, -, rfl⟩ := acquire_ok hacquire
        exact h.setSession_of_ne (hne e (findEntryLocked_of_mem h.nodup he)) _
  | releaseReference other hne => exact h.setSession_of_ne hne _
  | remove other hne =>
    by_cases hpos : 0 < other
    · cases hfind : findEntryLocked r.entries other with
      | none =>
        rw [removeDecodeSession, (remove_of_not_found (.inr hfind)).1]
        exact h
      | some e =>
        rw [removeDecodeSession, (remove_of_found hpos hfind).2]
        exact h.unlink_of_ne hfind (hne e hfind) _
    · rw [removeDecodeSession, (remove_of_not_found (.inl (not_lt.mp hpos))).1]
      exact h
  | destroy other hne => exact h.setSession_of_ne hne _

/-- An acquire that succeeds finds the session idle. -/
theorem acquire (h : Registered handle id false busy r) {i : ℕ}
    (hacquire : acquireDecodeSession r handle = (.ok i, r')) :
    i = id ∧ busy = false ∧ Registered handle id false true r' := by
  obtain ⟨-, ⟨e, he, heq, rfl⟩, hreleased, hinUse, -, rfl⟩ := acquire_ok hacquire
  have hfind := findEntryLocked_of_mem h.nodup he
  rw [heq, h.find] at hfind
  obtain rfl := Option.some.inj hfind
  have hbusy : busy = false := h.inUse.symm.trans hinUse
  subst hbusy
  refine ⟨rfl, rfl, h.setSession _ hreleased ?_ rfl⟩
  show (r.sessions id).referenceCount + 1 = 1
  rw [h.references]
  rfl

/-- The only reference is given back: the session is to be destroyed when it was released. -/
theorem releaseReference (h : Registered handle id released true r) :
    (releaseDecodeSessionReference r id).1 = released ∧
      Registered handle id released false (releaseDecodeSessionReference r id).2 := by
  rw [releaseDecodeSessionReference, releaseReference_of_one h.references]
  exact ⟨h.released_eq, h.setSession _ h.released_eq rfl rfl⟩

/-- The handle is removed: the session is handed over unless a read still has it. -/
theorem remove (h : Registered handle id false busy r) :
    (removeDecodeSession r handle).1 = (if busy then none else some id) ∧
      Registered handle id true busy (removeDecodeSession r handle).2 := by
  rw [removeDecodeSession, (remove_of_found h.handle_pos h.find).2]
  refine ⟨?_, h.handle_pos, h.counter_pos, h.counter_le, ?_, fun e he hid => ?_, nofun, ?_, ?_, ?_⟩
  · show (if (r.sessions id).referenceCount = 0 then some id else none) = _
    rw [h.references]
    cases busy <;> rfl
  · exact h.nodup.sublist (List.eraseP_sublist.map _)
  · obtain ⟨he, hne⟩ := (mem_unlinked h.nodup).mp he
    exact absurd (h.linked e he hid).1 hne
  · exact congrArg Session.released (Function.update_self id _ r.sessions)
  · have hself := fun x => Function.update_self id x r.sessions
    exact (congrArg Session.referenceCount (hself _)).trans h.references
  · exact (congrArg Session.inUse (Function.update_self id _ r.sessions)).trans h.inUse

end Registered

/-! ## Frames and threads -/

/-- The frame is responsible for a claimed handle. -/
def Frame.holds : Frame → Bool
  | .releasing _ _ _ | .restoring _ _ _ => true
  | _ => false

/-- The frame is about to destroy the session. -/
def Frame.isDestroying : Frame → Bool
  | .destroying _ _ => true
  | _ => false

/-- The frame reports a native read that has failed and was not handled yet. -/
def Frame.reports : Frame → Bool
  | .returning (.error _) | .destroying _ (.returning (.error _)) => true
  | _ => false

/-- Where a frame of the thread `t` may be. -/
def Frame.Placed (handle : ℤ) (id : ℕ) (c : Custody Thread) (t : Thread) : Frame → Prop
  | .reading i _ => i = id ∧ c.reader = some t
  | .returning _ => True
  | .releasing sweep _ x => x = handle ∧ ∃ r, c = .held t sweep r
  | .restoring _ x _ => x = handle ∧ ∃ r, c = .held t false r
  -- `cleanable.clean()` follows a successful release, so that it finds the atomic empty
  | .cleaning _ => c.isReleased = true
  | .destroying i _ => i = id ∧ c = .condemned t

/-- A call fails with an `IllegalStateException`. -/
def IllegalState (failure : Option Throwable) : Prop :=
  ∃ message, failure = some (.illegalStateException message)

/-- What a thread has below the call it is carrying out: nothing, or the native read whose callback
made that call. -/
def Below (id : ℕ) (c : Custody Thread) (t : Thread) (rest : List Frame) : Prop :=
  rest = [] ∧ c.reader ≠ some t ∨
    ∃ request, rest = [.reading id request] ∧ c.reader = some t ∧ c.Grants t

/-- A call above `rest`. -/
structure Running (handle : ℤ) (id : ℕ) (c : Custody Thread) (t : Thread) (f : Frame)
    (rest : List Frame) : Prop where
  below : Below id c t rest
  calls : f.isReading = false
  placed : f.Placed handle id c t
  granted : f.locked = true → c.Grants t
  holder : ∀ sweep r, c = .held t sweep r → f.holds = true
  destroyer : c = .condemned t → f.isDestroying = true
  illegal : rest ≠ [] → f.locked = true → IllegalState f.failure

/-- A thread carries out a call, or is outside of the wrapper. -/
def ThreadFits (handle : ℤ) (id : ℕ) (c : Custody Thread) (t : Thread) (frames : List Frame) :
    Prop :=
  (∃ f rest, frames = f :: rest ∧ Running handle id c t f rest) ∨
    Below id c t frames ∧ (∀ sweep r, c ≠ .held t sweep r) ∧ c ≠ .condemned t

section Threads

variable {handle : ℤ} {id : ℕ} {c c' : Custody Thread} {t : Thread} {f f' : Frame}
  {rest frames : List Frame}

/-- What is below a call stays there while the reader stays the same. -/
theorem Below.transfer (h : Below id c t rest) (hreader : c.reader = some t ↔ c'.reader = some t)
    (hgrants : rest ≠ [] → c.Grants t → c'.Grants t) : Below id c' t rest := by
  rcases h with ⟨hnil, hnone⟩ | ⟨request, heq, hsome, hgrant⟩
  · exact .inl ⟨hnil, fun hc => hnone (hreader.mpr hc)⟩
  · refine .inr ⟨request, heq, hreader.mp hsome, hgrants ?_ hgrant⟩
    rw [heq]
    exact List.cons_ne_nil _ _

/-- Below a call there are only native reads. -/
theorem Below.isReading (h : Below id c t rest) : ∀ f ∈ rest, f.isReading = true := by
  rcases h with ⟨rfl, -⟩ | ⟨request, rfl, -, -⟩
  · exact fun f hf => absurd hf List.not_mem_nil
  · intro f hf
    rw [List.mem_singleton.mp hf]
    rfl

/-- A frame says the same under two custodies that agree on its thread. -/
theorem Frame.Placed.sameFor (h : f.Placed handle id c t) (hsame : c.SameFor t c') :
    f.Placed handle id c' t := by
  cases f with
  | reading i request => exact ⟨h.1, hsame.reader.mp h.2⟩
  | returning outcome => trivial
  | releasing sweep failure x => exact ⟨h.1, (hsame.held sweep).mp h.2⟩
  | restoring failure x e => exact ⟨h.1, (hsame.held false).mp h.2⟩
  | cleaning failure => exact hsame.released h
  | destroying i after => exact ⟨h.1, hsame.condemned.mp h.2⟩

/-- A thread that another one's step does not concern. -/
theorem ThreadFits.sameFor (h : ThreadFits handle id c t frames) (hsame : c.SameFor t c')
    (hgrants : ∀ f ∈ frames, f.locked = true → c.Grants t → c'.Grants t) :
    ThreadFits handle id c' t frames := by
  have hbelow : ∀ rest, (∀ f ∈ rest, f ∈ frames) → Below id c t rest → Below id c' t rest := by
    intro rest hsub hrest
    refine hrest.transfer hsame.reader fun hne => ?_
    obtain ⟨f, hf⟩ := List.exists_mem_of_ne_nil rest hne
    refine hgrants f (hsub f hf) ?_
    have hreading := hrest.isReading f hf
    cases f with
    | reading i request => rfl
    | _ => cases hreading
  rcases h with ⟨f, rest, rfl, hrun⟩ | ⟨hrest, hheld, hcondemned⟩
  · refine .inl ⟨f, rest, rfl, hbelow rest (fun f hf => List.mem_cons_of_mem _ hf) hrun.below,
      hrun.calls, hrun.placed.sameFor hsame, fun hlocked => ?_, fun sweep r hc => ?_, fun hc => ?_,
      hrun.illegal⟩
    · exact hgrants f List.mem_cons_self hlocked (hrun.granted hlocked)
    · obtain ⟨r', hr'⟩ := (hsame.held sweep).mpr ⟨r, hc⟩
      exact hrun.holder sweep r' hr'
    · exact hrun.destroyer (hsame.condemned.mpr hc)
  · refine .inr ⟨hbelow frames (fun f hf => hf) hrest, fun sweep r hc => ?_, fun hc => ?_⟩
    · obtain ⟨r', hr'⟩ := (hsame.held sweep).mpr ⟨r, hc⟩
      exact hheld sweep r' hr'
    · exact hcondemned (hsame.condemned.mpr hc)

/-- The call a thread is carrying out. -/
theorem ThreadFits.running (h : ThreadFits handle id c t (f :: rest)) (hf : f.isReading = false) :
    Running handle id c t f rest := by
  rcases h with ⟨g, rest', heq, hrun⟩ | ⟨hbelow, -⟩
  · obtain ⟨rfl, rfl⟩ := List.cons.inj heq
    exact hrun
  · rw [hbelow.isReading f List.mem_cons_self] at hf
    cases hf

/-- A thread that may call the session is outside of the wrapper. -/
theorem ThreadFits.outside (h : ThreadFits handle id c t frames) (hmay : mayCall frames = true) :
    Below id c t frames ∧ (∀ sweep r, c ≠ .held t sweep r) ∧ c ≠ .condemned t := by
  rcases h with ⟨f, rest, rfl, hrun⟩ | h
  · have hcalls := hrun.calls
    cases f with
    | reading i request => cases hcalls
    | _ => cases hmay
  · exact h

/-- A thread in a callback of a native read. -/
theorem ThreadFits.inRead {i : ℕ} {request : ReadRequest}
    (h : ThreadFits handle id c t (.reading i request :: rest)) :
    i = id ∧ rest = [] ∧ c.reader = some t ∧ c.Grants t := by
  obtain ⟨hbelow, -⟩ := h.outside rfl
  rcases hbelow with ⟨hnil, -⟩ | ⟨request', heq, hreader, hgrant⟩
  · cases hnil
  · obtain ⟨hframe, rfl⟩ := List.cons.inj heq
    obtain ⟨rfl, -⟩ := Frame.reading.inj hframe
    exact ⟨rfl, rfl, hreader, hgrant⟩

/-- The next frame of the same call. -/
theorem Running.next (h : Running handle id c t f rest) (hcalls : f'.isReading = false)
    (hplaced : f'.Placed handle id c' t) (hlocked : f'.locked = f.locked)
    (hfailure : f'.failure = f.failure) (hreader : c.reader = some t ↔ c'.reader = some t)
    (hgrants : c.Grants t → c'.Grants t)
    (hholder : ∀ sweep r, c' = .held t sweep r → f'.holds = true)
    (hdestroyer : c' = .condemned t → f'.isDestroying = true) :
    ThreadFits handle id c' t (f' :: rest) := by
  refine .inl ⟨f', rest, rfl, h.below.transfer hreader fun _ => hgrants, hcalls, hplaced, ?_,
    hholder, hdestroyer, ?_⟩
  · rw [hlocked]
    exact fun hl => hgrants (h.granted hl)
  · rw [hlocked, hfailure]
    exact h.illegal

/-- The call is over. -/
theorem Running.done (h : Running handle id c t f rest)
    (hreader : c.reader = some t ↔ c'.reader = some t)
    (hgrants : rest ≠ [] → c.Grants t → c'.Grants t) (hheld : ∀ sweep r, c' ≠ .held t sweep r)
    (hcondemned : c' ≠ .condemned t) : ThreadFits handle id c' t rest :=
  .inr ⟨h.below.transfer hreader hgrants, hheld, hcondemned⟩

end Threads

/-! ## What was freed -/

/-- The account of native memory: the session and its global reference are freed together, a block
once it is no longer pending. -/
structure Ledger (source : PullSource) (destroyed : Bool) (frees : Resource → ℕ) (nextBlock : ℕ)
    (pending : Option ℕ) (current : PullSource) : Prop where
  session : frees .session = if destroyed then 1 else 0
  refs : ∀ n, frees (.globalRef n) =
    if destroyed = true ∧ source.reference = some n then 1 else 0
  blocks : ∀ n, frees (.block n) = if n < nextBlock ∧ pending ≠ some n then 1 else 0
  pending_lt : ∀ n, pending = some n → n < nextBlock
  source_eq : destroyed = false → current = source
  cleared : destroyed = true → pending = none

/-! ## The invariant -/

variable [DecidableEq Thread]

/-- The state of the system under a custody. -/
structure Inv (handle : ℤ) (id : ℕ) (source : PullSource) (c : Custody Thread) (s : System Thread) :
    Prop where
  slot : s.session.cleanup.handle = c.slotValue handle
  released : s.released = if c.isReleased then 1 else 0
  retries : c.Retries → s.cleaned = false
  opened : s.session.active = true → s.cleaned = false → c.InSlot
  stuck : c.Stuck s.session.active → s.releaseFailed = true
  threads : ∀ t, ThreadFits handle id c t (s.stack t)
  monitor : Balanced Frame.locked s.monitor s.stack
  registry : Registered handle id c.isReleased c.reader.isSome s.registry
  ledger : Ledger source c.isDestroyed s.frees s.nextBlock s.context.pullPendingSamples
    s.context.source
  closing : s.closeCalled = true → s.session.active = false
  failing : s.readFailed = true →
    s.session.active = false ∨ ∃ t, ∃ f ∈ s.stack t, f.reports = true

end JFlac.Sessions.Pull
