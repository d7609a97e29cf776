import JFlac.Encode.Opening
import JFlac.Lib.Transition

/-!
# Encoders and their handles

The native functions as Java calls them, one after the other: an open that succeeds registers its
context under a handle, and every other function looks its context up there. A run is any list of
calls with any arguments, so that handles may be stale, forged or used twice.

Every context follows the contract of `Usage` whatever is called, the registry holds exactly those
whose encoder is open, and all others have given back what they took. A callback that calls back
into these functions is left to the registry model of `JFlac.Handles`.
-/

namespace JFlac.Encode

open Metadata Metadata.Native
open Handles (Registry Entry registerEncodeContext acquireEncodeContext
  releaseEncodeContextReference removeEncodeContext findEntryLocked)

/-! ## Calls -/

/-- What an open is given to write to: a path or an object, which may be null. -/
inductive Target where
  | file (path : Option Text)
  | outputStream (given : Bool)
  | seekableChannel (given : Bool)

/-- The output of a target. -/
def Target.output : Target → Output
  | .file _ => .file
  | .outputStream _ => .outputStream
  | .seekableChannel _ => .seekableChannel

/-- The calls from Java. `elements` says whether `GetIntArrayElements` succeeds. -/
inductive Call where
  | openEncoder (target : Target) (request : Option NativeEncodingRequest) (platform : Platform)
  | writeEncoderInterleaved (handle : ℤ) (samples : Option (List ℤ)) (frames : ℤ) (elements : Bool)
  | finishEncoder (handle : ℤ)
  | releaseEncoder (handle : ℤ)

/-- How a call returns: the handle of an open, and the exception that Java sees. -/
structure Reply where
  handle : ℤ
  exception : Option Throwable

/-- The registry, the contexts by the number of their open, and the calls with their replies. -/
structure Encoders (E : Type) where
  registry : Registry
  machines : ℕ → Machine E
  opened : ℕ
  calls : List (Call × Reply)

variable {E : Type}

/-- Nothing was called yet. -/
def Encoders.empty (F : LibFlac E) : Encoders E :=
  { registry := Registry.empty, machines := fun _ => Machine.empty F, opened := 0, calls := [] }

/-- `active_encode_context_count`. -/
def Encoders.activeEncodeContextCount (w : Encoders E) : ℕ := w.registry.entries.length

/-- The context of one open. -/
def Encoders.setMachine (w : Encoders E) (id : ℕ) (m : Machine E) : Encoders E :=
  { w with machines := Function.update w.machines id m }

/-- Replaces the registry. -/
def Encoders.withRegistry (w : Encoders E) (registry : Registry) : Encoders E :=
  { w with registry := registry }

/-- A JNI call starts without a pending exception. -/
def Machine.enter (m : Machine E) : Machine E := { m with env := { m.env with pending := none } }

section functions
variable (F : LibFlac E) (lib : LibFlacMetadata) (objects : ℕ → Objects)

/-- An open up to the registration. -/
def openTarget (O : Objects) (P : Platform) (request : Option NativeEncodingRequest) :
    Target → Bool × Machine E
  | .file path => openFile F lib O P path request (Machine.empty F)
  | .outputStream given =>
    openEncoderInternal F lib O P .outputStream given request (Machine.empty F)
  | .seekableChannel given =>
    openEncoderInternal F lib O P .seekableChannel given request (Machine.empty F)

/-- The exception for a registry entry that could not be allocated. -/
def registerFailure : Throwable :=
  .flacEncodeException "Failed to register FLAC encoder handle."

/-- `openEncoderFile`, `openEncoderStream` and `openEncoderChannel`; no result stands for a search
for a free handle that does not end. -/
def Encoders.openEncoder (P : Platform) (target : Target) (request : Option NativeEncodingRequest)
    (w : Encoders E) : Option (Reply × Encoders E) :=
  let id := w.opened
  match openTarget F lib (objects id) P request target with
  | (false, m) => some (⟨0, m.env.pending⟩, { w.setMachine id m with opened := id + 1 })
  | (true, m) =>
    if !P.registryEntry then
      let m := (destroyEncodeContext F (objects id) m).throwNew registerFailure
      some (⟨0, m.env.pending⟩, { w.setMachine id m with opened := id + 1 })
    else
      (registerEncodeContext w.registry id).map fun (handle, registry) =>
        (⟨handle, m.env.pending⟩,
          { (w.withRegistry registry).setMachine id m with opened := id + 1 })

/-- `destroy_encode_context` for a context of the registry. -/
def Encoders.destroy (id : ℕ) (w : Encoders E) : Encoders E :=
  w.setMachine id (destroyEncodeContext F (objects id) (w.machines id))

/-- `release_encode_context_reference`. -/
def Encoders.releaseReference (id : ℕ) (w : Encoders E) : Encoders E :=
  let released := releaseEncodeContextReference w.registry id
  let w := w.withRegistry released.2
  if released.1 then w.destroy F objects id else w

/-- `writeEncoderInterleaved`. -/
def Encoders.writeEncoderInterleaved (handle : ℤ) (samples : Option (List ℤ)) (frames : ℤ)
    (elements : Bool) (w : Encoders E) : Reply × Encoders E :=
  match acquireEncodeContext w.registry handle with
  | (.error exception, registry) => (⟨0, some exception⟩, w.withRegistry registry)
  | (.ok id, registry) =>
    let m := (w.machines id).enter.writeInterleaved F (objects id) samples frames elements
    let w := ((w.withRegistry registry).setMachine id m).releaseReference F objects id
    (⟨0, (w.machines id).env.pending⟩, w)

/-- `finishEncoder`. -/
def Encoders.finishEncoder (handle : ℤ) (w : Encoders E) : Reply × Encoders E :=
  match acquireEncodeContext w.registry handle with
  | (.error exception, registry) => (⟨0, some exception⟩, w.withRegistry registry)
  | (.ok id, registry) =>
    let w := w.withRegistry (removeEncodeContext registry handle).2
    let r := (w.machines id).enter.finishStream F (objects id)
    let w := (w.setMachine id r.2).releaseReference F objects id
    (⟨0, (w.machines id).env.pending.or r.1⟩, w)

/-- `releaseEncoder`. -/
def Encoders.releaseEncoder (handle : ℤ) (w : Encoders E) : Reply × Encoders E :=
  match removeEncodeContext w.registry handle with
  | (none, registry) => (⟨0, none⟩, w.withRegistry registry)
  | (some id, registry) =>
    let w := ((w.withRegistry registry).setMachine id (w.machines id).enter).destroy F objects id
    (⟨0, (w.machines id).env.pending⟩, w)

/-- The reply to a call, and what it leaves. -/
def Encoders.perform (w : Encoders E) : Call → Option (Reply × Encoders E)
  | .openEncoder target request P => w.openEncoder F lib objects P target request
  | .writeEncoderInterleaved handle samples frames elements =>
    some (w.writeEncoderInterleaved F objects handle samples frames elements)
  | .finishEncoder handle => some (w.finishEncoder F objects handle)
  | .releaseEncoder handle => some (w.releaseEncoder F objects handle)

/-- One call, with its record. -/
def Encoders.step (w : Encoders E) (call : Call) : Option (Encoders E) :=
  (w.perform F lib objects call).map fun (reply, w') =>
    { w' with calls := w.calls ++ [(call, reply)] }

end functions

/-! ## The invariant -/

/-- An open encoder: the contract was kept, and every block it was given is alive. -/
def Alive (m : Machine E) : Prop :=
  ∃ natives : List StreamMetadata, Filled natives 0 m.env ∧
    ∃ references, Follows m ⟨.ready, false, references, List.range natives.length⟩

/-- An open that failed, or an encoder that was finished or released: the contract was kept, nothing
is held, and every block was deleted exactly once. -/
def Ended (m : Machine E) : Prop :=
  (Follows m ⟨.absent, false, 0, []⟩ ∨ Follows m ⟨.freed, false, 0, []⟩) ∧ Emptied m

/-- A session record between two calls. -/
structure Idle (session : Handles.Session) : Prop where
  referenceCount : session.referenceCount = 0
  released : session.released = false
  inUse : session.inUse = false
  hasCodec : session.hasCodec = true

/-- The invariant of the registry and the contexts. -/
structure Sound (w : Encoders E) : Prop where
  counter : 0 < w.registry.nextHandle ∧ w.registry.nextHandle ≤ longMax
  handles : (w.registry.entries.map Entry.handle).Nodup
  contexts : (w.registry.entries.map Entry.session).Nodup
  positive : ∀ e ∈ w.registry.entries, 0 < e.handle
  bound : ∀ e ∈ w.registry.entries, e.session < w.opened
  idle : ∀ e ∈ w.registry.entries, Idle (w.registry.sessions e.session)
  fresh : ∀ id, w.opened ≤ id → w.registry.sessions id = Handles.Session.opened
  alive : ∀ e ∈ w.registry.entries, Alive (w.machines e.session)
  ended : ∀ id < w.opened, (∀ e ∈ w.registry.entries, e.session ≠ id) → Ended (w.machines id)
  count : w.opened ≤ w.calls.length

variable {F : LibFlac E} {lib : LibFlacMetadata} {objects : ℕ → Objects} {w w' : Encoders E}
  {m : Machine E} {P : Platform}

theorem sound_empty (F : LibFlac E) : Sound (Encoders.empty F) where
  counter := by
    show 0 < Handles.firstValidSessionHandle ∧ Handles.firstValidSessionHandle ≤ longMax
    decide
  handles := List.nodup_nil
  contexts := List.nodup_nil
  positive := by simp [Encoders.empty, Registry.empty]
  bound := by simp [Encoders.empty, Registry.empty]
  idle := by simp [Encoders.empty, Registry.empty]
  fresh _ _ := rfl
  alive := by simp [Encoders.empty, Registry.empty]
  ended := by simp [Encoders.empty]
  count := Nat.le_refl 0

/-! ## Opening -/

theorem openTarget_result (F : LibFlac E) (lib : LibFlacMetadata) (O : Objects) (P : Platform)
    (request : Option NativeEncodingRequest) (target : Target) :
    OpenResult lib P target.output request (openTarget F lib O P request target) := by
  cases target with
  | file path => exact openFile_result F lib O P path request
  | outputStream given =>
    exact openEncoderInternal_result F lib O P given request (Reading.empty F (by simp [Target.output]))
  | seekableChannel given =>
    exact openEncoderInternal_result F lib O P given request (Reading.empty F (by simp [Target.output]))

theorem NotOpened.ended (h : NotOpened P m) : Ended m := ⟨h.follows, h.emptied⟩

theorem Opened.alive {output : Output} {request : NativeEncodingRequest}
    {natives : List StreamMetadata} (h : Opened lib output request natives m) : Alive m :=
  ⟨natives, h.opening.filled, output.references, h.opening.follows⟩

/-- An open encoder can be destroyed at any time. -/
theorem Alive.destroy (h : Alive m) (F : LibFlac E) (O : Objects) :
    Ended (destroyEncodeContext F O m) := by
  obtain ⟨natives, hfilled, references, hfollows⟩ := h
  exact ⟨.inr (hfollows.destroy rfl F O), emptied_destroy hfilled.owned F O⟩

theorem Ended.throwNew (h : Ended m) (exception : Throwable) : Ended (m.throwNew exception) :=
  ⟨h.1.imp (fun hfollows => hfollows.throwNew exception)
    (fun hfollows => hfollows.throwNew exception), ⟨h.2.slots, h.2.deleted⟩⟩

/-- There is one more context, and nobody has its handle. -/
theorem Sound.addEnded (h : Sound w) (hm : Ended m) (call : Call × Reply) :
    Sound { w.setMachine w.opened m with opened := w.opened + 1, calls := w.calls ++ [call] } where
  counter := h.counter
  handles := h.handles
  contexts := h.contexts
  positive := h.positive
  bound e he := Nat.lt_succ_of_lt (h.bound e he)
  idle := h.idle
  fresh id hid := h.fresh id (Nat.le_of_succ_le hid)
  alive e he := by
    show Alive (Function.update w.machines w.opened m e.session)
    rw [Function.update_of_ne (Nat.ne_of_lt (h.bound e he))]
    exact h.alive e he
  ended id hid hunregistered := by
    show Ended (Function.update w.machines w.opened m id)
    by_cases heq : id = w.opened
    · rw [heq, Function.update_self]
      exact hm
    · rw [Function.update_of_ne heq]
      exact h.ended id (Nat.lt_of_le_of_ne (Nat.le_of_lt_succ hid) heq) hunregistered
  count := by
    show w.opened + 1 ≤ (w.calls ++ [call]).length
    rw [List.length_append, List.length_singleton]
    exact Nat.succ_le_succ h.count

/-- There is one more context, under a handle of its own. -/
theorem Sound.addAlive (h : Sound w) (hm : Alive m) {handle : ℤ} {registry : Registry}
    (hregister : registerEncodeContext w.registry w.opened = some (handle, registry))
    (call : Call × Reply) :
    Sound { (w.withRegistry registry).setMachine w.opened m with
      opened := w.opened + 1, calls := w.calls ++ [call] } := by
  obtain ⟨hpositive, hmax, hfree, rfl⟩ :=
    Handles.register_spec h.counter.1 h.counter.2 hregister
  have hother : ∀ e ∈ w.registry.entries, e.session ≠ w.opened := fun e he =>
    Nat.ne_of_lt (h.bound e he)
  constructor
  · exact Handles.bumpHandle_mem hpositive hmax
  · show (handle :: w.registry.entries.map Entry.handle).Nodup
    refine List.nodup_cons.mpr ⟨fun hmem => ?_, h.handles⟩
    obtain ⟨e, he, heq⟩ := List.mem_map.mp hmem
    exact hfree e he heq
  · show (w.opened :: w.registry.entries.map Entry.session).Nodup
    refine List.nodup_cons.mpr ⟨fun hmem => ?_, h.contexts⟩
    obtain ⟨e, he, heq⟩ := List.mem_map.mp hmem
    exact hother e he heq
  · intro e he
    rcases List.mem_cons.mp he with rfl | he
    · exact hpositive
    · exact h.positive e he
  · intro e he
    rcases List.mem_cons.mp he with rfl | he
    · exact Nat.lt_succ_self w.opened
    · exact Nat.lt_succ_of_lt (h.bound e he)
  · intro e he
    rcases List.mem_cons.mp he with rfl | he
    · show Idle (Function.update w.registry.sessions w.opened _ w.opened)
      rw [Function.update_self, h.fresh w.opened (Nat.le_refl _)]
      exact ⟨rfl, rfl, rfl, rfl⟩
    · show Idle (Function.update w.registry.sessions w.opened _ e.session)
      rw [Function.update_of_ne (hother e he)]
      exact h.idle e he
  · intro id hid
    show Function.update w.registry.sessions w.opened _ id = _
    rw [Function.update_of_ne (Nat.ne_of_gt hid)]
    exact h.fresh id (Nat.le_of_succ_le hid)
  · intro e he
    rcases List.mem_cons.mp he with rfl | he
    · show Alive (Function.update w.machines w.opened m w.opened)
      rw [Function.update_self]
      exact hm
    · show Alive (Function.update w.machines w.opened m e.session)
      rw [Function.update_of_ne (hother e he)]
      exact h.alive e he
  · intro id hid hunregistered
    have hne : id ≠ w.opened := fun heq => hunregistered ⟨handle, w.opened⟩ List.mem_cons_self
      heq.symm
    show Ended (Function.update w.machines w.opened m id)
    rw [Function.update_of_ne hne]
    exact h.ended id (Nat.lt_of_le_of_ne (Nat.le_of_lt_succ hid) hne)
      fun e he => hunregistered e (List.mem_cons_of_mem _ he)
  · show w.opened + 1 ≤ (w.calls ++ [call]).length
    rw [List.length_append, List.length_singleton]
    exact Nat.succ_le_succ h.count

/-- There are no more handles than opens. -/
theorem Sound.length_entries (h : Sound w) : w.registry.entries.length ≤ w.opened := by
  have hsubset : (w.registry.entries.map Entry.session).Subperm (List.range w.opened) := by
    refine h.contexts.subperm fun id hid => ?_
    obtain ⟨e, he, rfl⟩ := List.mem_map.mp hid
    exact List.mem_range.mpr (h.bound e he)
  have hlength := hsubset.length_le
  rwa [List.length_map, List.length_range] at hlength

/-! ## Using a context -/

theorem Alive.kept (h : Alive m) {m' : Machine E} (hkept : Kept m m') : Alive m' := by
  obtain ⟨natives, hfilled, references, hfollows⟩ := h
  exact ⟨natives, hkept.filled hfilled, references, hfollows.kept hkept⟩

theorem Alive.throwNew (h : Alive m) (exception : Throwable) : Alive (m.throwNew exception) := by
  obtain ⟨natives, hfilled, references, hfollows⟩ := h
  exact ⟨natives, ⟨hfilled.clean, hfilled.created, hfilled.deleted, hfilled.metadataBlocks,
    hfilled.writes⟩, references, hfollows.throwNew exception⟩

theorem Alive.enter (h : Alive m) : Alive m.enter := by
  obtain ⟨natives, hfilled, references, hfollows⟩ := h
  exact ⟨natives, ⟨hfilled.clean, hfilled.created, hfilled.deleted, hfilled.metadataBlocks,
    hfilled.writes⟩, references, ⟨hfollows.history, hfollows.path, hfollows.references,
    hfollows.hasEncoder, hfollows.blocks⟩⟩

/-- An open encoder takes samples. -/
theorem Alive.process (h : Alive m) (samples : List ℤ) (frames : ℕ) (success : Bool) :
    Alive (m.record (.processInterleaved samples frames success)) := by
  obtain ⟨natives, hfilled, references, hfollows⟩ := h
  exact ⟨natives, hfilled, references, hfollows.record rfl rfl rfl rfl rfl⟩

theorem Alive.writeInterleaved (h : Alive m) (F : LibFlac E) (O : Objects)
    (samples : Option (List ℤ)) (frames : ℤ) (elements : Bool) :
    Alive (m.writeInterleaved F O samples frames elements) := by
  unfold Machine.writeInterleaved
  split
  · exact h.throwNew _
  split
  · exact h
  split
  · exact h.throwNew _
  · rename_i samples
    split
    · exact h.throwNew _
    split
    · exact h.throwNew _
    · have hprocessed := (h.kept (kept_perform O
        (F.processInterleaved samples frames.toNat m.encoder) m)).process samples frames.toNat
        (m.perform O (F.processInterleaved samples frames.toNat m.encoder)).1
      dsimp only
      split
      · exact hprocessed
      · exact hprocessed.throwNew _

/-- A finished encoder is only good for being deleted. -/
theorem Alive.finishStream (h : Alive m) (F : LibFlac E) (O O' : Objects) :
    Ended (destroyEncodeContext F O' (m.finishStream F O).2) := by
  obtain ⟨natives, hfilled, references, hfollows⟩ := h
  have hkept := kept_perform O (F.finish m.encoder) m
  rcases hperform : m.perform O (F.finish m.encoder) with ⟨success, m₁⟩
  rw [hperform] at hkept
  have hfinished : Follows (m₁.record (.finish success))
      ⟨.finished, false, references, List.range natives.length⟩ :=
    (hfollows.kept hkept).record rfl rfl rfl rfl rfl
  have howned : Owned (m₁.record (.finish success)).env := hkept.owned hfilled.owned
  unfold Machine.finishStream
  rw [hperform]
  dsimp only
  split
  · dsimp only
    split
    · have hflush := kept_callStream O .flush (m₁.record (.finish success))
      exact ⟨.inr ((hfinished.kept hflush).destroy rfl F O'),
        emptied_destroy (hflush.owned howned) F O'⟩
    · exact ⟨.inr (hfinished.destroy rfl F O'), emptied_destroy howned F O'⟩
  · exact ⟨.inr (hfinished.destroy rfl F O'), emptied_destroy howned F O'⟩

/-! ## Calls on a handle -/

/-- A call that found nothing. -/
theorem Sound.log (h : Sound w) (call : Call × Reply) :
    Sound { w with calls := w.calls ++ [call] } where
  counter := h.counter
  handles := h.handles
  contexts := h.contexts
  positive := h.positive
  bound := h.bound
  idle := h.idle
  fresh := h.fresh
  alive := h.alive
  ended := h.ended
  count := by
    show w.opened ≤ (w.calls ++ [call]).length
    rw [List.length_append]
    exact Nat.le_add_right_of_le h.count

/-- A context was used, and the registry is as before. -/
theorem Sound.used (h : Sound w) {e : Entry} (he : e ∈ w.registry.entries) (hm : Alive m) :
    Sound (w.setMachine e.session m) where
  counter := h.counter
  handles := h.handles
  contexts := h.contexts
  positive := h.positive
  bound := h.bound
  idle := h.idle
  fresh := h.fresh
  alive e' he' := by
    show Alive (Function.update w.machines e.session m e'.session)
    by_cases heq : e'.session = e.session
    · rw [heq, Function.update_self]
      exact hm
    · rw [Function.update_of_ne heq]
      exact h.alive e' he'
  ended id hid hunregistered := by
    show Ended (Function.update w.machines e.session m id)
    rw [Function.update_of_ne (Ne.symm (hunregistered e he))]
    exact h.ended id hid hunregistered
  count := h.count

/-- A context was destroyed, and its handle is gone. -/
theorem Sound.dropped (h : Sound w) {e : Entry} (he : e ∈ w.registry.entries)
    (session : Handles.Session) (hm : Ended m) :
    Sound ((w.withRegistry
      { entries := w.registry.entries.eraseP fun e' => e'.handle = e.handle
        nextHandle := w.registry.nextHandle
        sessions := Function.update w.registry.sessions e.session session }).setMachine
      e.session m) := by
  have hsub : (w.registry.entries.eraseP fun e' => e'.handle = e.handle).Sublist
      w.registry.entries := List.eraseP_sublist
  have hmem : ∀ e', e' ∈ (w.registry.entries.eraseP fun e' => e'.handle = e.handle) ↔
      e' ∈ w.registry.entries ∧ e'.handle ≠ e.handle := fun e' => Handles.mem_unlinked h.handles
  have hne : ∀ e' ∈ w.registry.entries, e'.handle ≠ e.handle → e'.session ≠ e.session := by
    intro e' he' hhandle hsession
    exact hhandle (congrArg Entry.handle (List.inj_on_of_nodup_map h.contexts he' he hsession))
  constructor
  · exact h.counter
  · exact (hsub.map Entry.handle).nodup h.handles
  · exact (hsub.map Entry.session).nodup h.contexts
  · exact fun e' he' => h.positive e' (hsub.subset he')
  · exact fun e' he' => h.bound e' (hsub.subset he')
  · intro e' he'
    obtain ⟨hin, hhandle⟩ := (hmem e').mp he'
    show Idle (Function.update w.registry.sessions e.session session e'.session)
    rw [Function.update_of_ne (hne e' hin hhandle)]
    exact h.idle e' hin
  · intro id hid
    show Function.update w.registry.sessions e.session session id = _
    rw [Function.update_of_ne (Nat.ne_of_gt (Nat.lt_of_lt_of_le (h.bound e he) hid))]
    exact h.fresh id hid
  · intro e' he'
    obtain ⟨hin, hhandle⟩ := (hmem e').mp he'
    show Alive (Function.update w.machines e.session m e'.session)
    rw [Function.update_of_ne (hne e' hin hhandle)]
    exact h.alive e' hin
  · intro id hid hunregistered
    show Ended (Function.update w.machines e.session m id)
    by_cases heq : id = e.session
    · rw [heq, Function.update_self]
      exact hm
    · rw [Function.update_of_ne heq]
      refine h.ended id hid fun e' he' hsession => ?_
      by_cases hhandle : e'.handle = e.handle
      · have hsame := List.inj_on_of_nodup_map h.handles he' he hhandle
        exact heq (hsession.symm.trans (congrArg Entry.session hsame))
      · exact hunregistered e' ((hmem e').mpr ⟨he', hhandle⟩) hsession
  · exact h.count

/-! ## What the calls do -/

/-- A registry that has lost a handle, with its session record. -/
def unlink (registry : Registry) (e : Entry) (session : Handles.Session) : Registry :=
  { entries := registry.entries.eraseP fun e' => e'.handle = e.handle
    nextHandle := registry.nextHandle
    sessions := Function.update registry.sessions e.session session }

theorem unlink_setSession (registry : Registry) (e : Entry) (session session' : Handles.Session) :
    (unlink registry e session).setSession e.session session' = unlink registry e session' := by
  rw [unlink, Registry.setSession, unlink, Function.update_idem]

/-- The only reference to a session is given back. -/
theorem releaseReference_setSession (registry : Registry) (id : ℕ) (session : Handles.Session)
    (h : session.referenceCount = 1) :
    releaseEncodeContextReference (registry.setSession id session) id =
      (session.released,
        registry.setSession id { session with referenceCount := 0, inUse := false }) := by
  have hself : (registry.setSession id session).sessions id = session := Function.update_self ..
  rw [releaseEncodeContextReference, Handles.releaseReference_of_one (by rw [hself]; exact h), hself,
    Registry.setSession, Registry.setSession, Registry.setSession, Function.update_idem]

section found
variable {e : Entry}

/-- The session of a live handle is free. -/
theorem Sound.acquire (h : Sound w) (he : e ∈ w.registry.entries) :
    acquireEncodeContext w.registry e.handle =
      (.ok e.session, w.registry.setSession e.session
        { w.registry.sessions e.session with referenceCount := 1, inUse := true }) := by
  have hidle := h.idle e he
  rw [acquireEncodeContext, Handles.acquire, if_pos (h.positive e he),
    Handles.findEntryLocked_of_mem h.handles he]
  dsimp only
  rw [if_pos (by rw [hidle.released, hidle.inUse, hidle.hasCodec]; rfl), hidle.referenceCount]

theorem Encoders.writeEncoderInterleaved_of_mem (h : Sound w) (he : e ∈ w.registry.entries)
    (samples : Option (List ℤ)) (frames : ℤ) (elements : Bool) :
    w.writeEncoderInterleaved F objects e.handle samples frames elements =
      (⟨0, ((w.machines e.session).enter.writeInterleaved F (objects e.session) samples frames
          elements).env.pending⟩,
        w.setMachine e.session ((w.machines e.session).enter.writeInterleaved F (objects e.session)
          samples frames elements)) := by
  have hidle := h.idle e he
  unfold writeEncoderInterleaved
  rw [h.acquire he]
  dsimp only
  -- the reference is given back, which leaves the session as it was
  have hsession : ({ w.registry.sessions e.session with referenceCount := 0, inUse := false } :
      Handles.Session) = w.registry.sessions e.session := by
    rw [← hidle.referenceCount, ← hidle.inUse]
  have hrelease := releaseReference_setSession w.registry e.session
    { w.registry.sessions e.session with referenceCount := 1, inUse := true } rfl
  have hsame : (w.registry.setSession e.session
      { w.registry.sessions e.session with referenceCount := 0, inUse := false }) = w.registry := by
    rw [hsession, Registry.setSession, Function.update_eq_self]
  unfold Encoders.releaseReference
  dsimp only [Encoders.setMachine, Encoders.withRegistry] at hrelease ⊢
  rw [hrelease, hsame, hidle.released]
  simp only [Bool.false_eq_true, ↓reduceIte, Function.update_self]

/-- A removal takes the entry out. -/
theorem Sound.remove_acquired (h : Sound w) (he : e ∈ w.registry.entries) :
    (removeEncodeContext (w.registry.setSession e.session
      { w.registry.sessions e.session with referenceCount := 1, inUse := true }) e.handle).2 =
        unlink w.registry e { w.registry.sessions e.session with
          referenceCount := 1, inUse := true, released := true } := by
  have hfound : findEntryLocked (w.registry.setSession e.session
      { w.registry.sessions e.session with referenceCount := 1, inUse := true }).entries e.handle =
        some e := Handles.findEntryLocked_of_mem h.handles he
  rw [removeEncodeContext, (Handles.remove_of_found (h.positive e he) hfound).2]
  simp only [Registry.setSession, Function.update_self, Function.update_idem, unlink]

theorem Encoders.finishEncoder_of_mem (F : LibFlac E) (objects : ℕ → Objects) (h : Sound w)
    (he : e ∈ w.registry.entries) :
    ∃ session, w.finishEncoder F objects e.handle =
      (⟨0, (destroyEncodeContext F (objects e.session) ((w.machines e.session).enter.finishStream F
          (objects e.session)).2).env.pending.or
            ((w.machines e.session).enter.finishStream F (objects e.session)).1⟩,
        (w.withRegistry (unlink w.registry e session)).setMachine e.session
          (destroyEncodeContext F (objects e.session) ((w.machines e.session).enter.finishStream F
            (objects e.session)).2)) := by
  refine ⟨{ w.registry.sessions e.session with
    referenceCount := 0, inUse := false, released := true }, ?_⟩
  unfold finishEncoder
  rw [h.acquire he]
  dsimp only
  rw [h.remove_acquired he]
  have hrelease := releaseReference_setSession (unlink w.registry e
    (w.registry.sessions e.session)) e.session { w.registry.sessions e.session with
      referenceCount := 1, inUse := true, released := true } rfl
  rw [unlink_setSession, unlink_setSession] at hrelease
  unfold Encoders.releaseReference
  dsimp only [Encoders.setMachine, Encoders.withRegistry]
  rw [hrelease]
  simp only [↓reduceIte, Encoders.destroy, Encoders.setMachine, Function.update_self,
    Function.update_idem]

theorem Encoders.releaseEncoder_of_mem (F : LibFlac E) (objects : ℕ → Objects) (h : Sound w)
    (he : e ∈ w.registry.entries) :
    ∃ session, w.releaseEncoder F objects e.handle =
      (⟨0, (destroyEncodeContext F (objects e.session)
          (w.machines e.session).enter).env.pending⟩,
        (w.withRegistry (unlink w.registry e session)).setMachine e.session
          (destroyEncodeContext F (objects e.session) (w.machines e.session).enter)) := by
  refine ⟨{ w.registry.sessions e.session with released := true }, ?_⟩
  have hfound : findEntryLocked w.registry.entries e.handle = some e :=
    Handles.findEntryLocked_of_mem h.handles he
  unfold releaseEncoder
  rw [removeEncodeContext, (Handles.remove_of_found (h.positive e he) hfound).2,
    if_pos (h.idle e he).referenceCount]
  simp only [Encoders.destroy, Encoders.setMachine, Encoders.withRegistry, Function.update_self,
    Function.update_idem, unlink]

end found

/-- The exception for a handle that is not registered. -/
def inactiveHandle : Throwable :=
  .illegalStateException "The native FLAC encoder handle is not active."

section notFound
variable {handle : ℤ} (hnone : findEntryLocked w.registry.entries handle = none)
include hnone

theorem Encoders.writeEncoderInterleaved_of_none (samples : Option (List ℤ)) (frames : ℤ)
    (elements : Bool) : w.writeEncoderInterleaved F objects handle samples frames elements =
      (⟨0, some inactiveHandle⟩, w) := by
  unfold writeEncoderInterleaved
  rw [acquireEncodeContext, Handles.acquire_of_not_found hnone]
  rfl

theorem Encoders.finishEncoder_of_none :
    w.finishEncoder F objects handle = (⟨0, some inactiveHandle⟩, w) := by
  unfold finishEncoder
  rw [acquireEncodeContext, Handles.acquire_of_not_found hnone]
  rfl

theorem Encoders.releaseEncoder_of_none :
    w.releaseEncoder F objects handle = (⟨0, none⟩, w) := by
  unfold releaseEncoder
  rw [removeEncodeContext, (Handles.remove_of_not_found (.inr hnone)).1]
  rfl

end notFound

/-! ## Runs -/

/-- As long as there are fewer contexts than handles, a registration finds one. -/
theorem Sound.register (h : Sound w) (hlength : (w.calls.length : ℤ) < longMax) (id : ℕ) :
    ∃ handle registry, registerEncodeContext w.registry id = some (handle, registry) := by
  have hentries : (w.registry.entries.length : ℤ) < longMax := by
    have hopened := h.length_entries.trans h.count
    omega
  obtain ⟨reserved, hreserved⟩ := Option.isSome_iff_exists.mp
    (Handles.reserveHandleLocked_total h.counter.1 h.counter.2 hentries)
  rw [registerEncodeContext, Handles.register, hreserved]
  exact ⟨_, _, rfl⟩

/-- An open adds a context, and with it a handle if it succeeds. -/
theorem Sound.openEncoder (h : Sound w) (hlength : (w.calls.length : ℤ) < longMax)
    (target : Target) (request : Option NativeEncodingRequest) (P : Platform) (call : Call) :
    ∃ reply w', w.openEncoder F lib objects P target request = some (reply, w') ∧
      Sound { w' with calls := w.calls ++ [(call, reply)] } := by
  have hresult := openTarget_result F lib (objects w.opened) P request target
  unfold Encoders.openEncoder
  dsimp only
  rcases hopen : openTarget F lib (objects w.opened) P request target with ⟨_ | _, m⟩
  · rw [hopen] at hresult
    exact ⟨_, _, rfl, h.addEnded (NotOpened.ended hresult) _⟩
  · rw [hopen] at hresult
    obtain ⟨_, -, _, hopened⟩ := hresult
    dsimp only
    split
    · exact ⟨_, _, rfl, h.addEnded ((hopened.alive.destroy F _).throwNew registerFailure) _⟩
    · obtain ⟨handle, registry, hregister⟩ := h.register hlength w.opened
      rw [hregister]
      exact ⟨_, _, rfl, h.addAlive hopened.alive hregister _⟩

/-- Every call keeps the invariant, and returns as long as there is a handle left. -/
theorem Sound.step (F : LibFlac E) (lib : LibFlacMetadata) (objects : ℕ → Objects) (h : Sound w)
    (hlength : (w.calls.length : ℤ) < longMax) (call : Call) :
    ∃ w', w.step F lib objects call = some w' ∧ Sound w' ∧
      w'.calls.length = w.calls.length + 1 := by
  suffices hperform : ∃ reply w', w.perform F lib objects call = some (reply, w') ∧
      Sound { w' with calls := w.calls ++ [(call, reply)] } by
    obtain ⟨reply, w', hw', hsound⟩ := hperform
    refine ⟨_, by rw [Encoders.step, hw']; rfl, hsound, ?_⟩
    rw [List.length_append, List.length_singleton]
  cases call with
  | openEncoder target request P => exact h.openEncoder hlength target request P _
  | writeEncoderInterleaved handle samples frames elements =>
    refine ⟨(w.writeEncoderInterleaved F objects handle samples frames elements).1,
      (w.writeEncoderInterleaved F objects handle samples frames elements).2, rfl, ?_⟩
    cases hfind : findEntryLocked w.registry.entries handle with
    | none =>
      rw [Encoders.writeEncoderInterleaved_of_none hfind]
      exact h.log _
    | some e =>
      obtain ⟨he, rfl⟩ := Handles.findEntryLocked_eq_some hfind
      rw [Encoders.writeEncoderInterleaved_of_mem h he]
      exact (h.used he ((h.alive e he).enter.writeInterleaved F _ samples frames elements)).log _
  | finishEncoder handle =>
    refine ⟨(w.finishEncoder F objects handle).1, (w.finishEncoder F objects handle).2, rfl, ?_⟩
    cases hfind : findEntryLocked w.registry.entries handle with
    | none =>
      rw [Encoders.finishEncoder_of_none hfind]
      exact h.log _
    | some e =>
      obtain ⟨he, rfl⟩ := Handles.findEntryLocked_eq_some hfind
      obtain ⟨session, heq⟩ := Encoders.finishEncoder_of_mem F objects h he
      rw [heq]
      exact (h.dropped he session ((h.alive e he).enter.finishStream F _ _)).log _
  | releaseEncoder handle =>
    refine ⟨(w.releaseEncoder F objects handle).1, (w.releaseEncoder F objects handle).2, rfl, ?_⟩
    cases hfind : findEntryLocked w.registry.entries handle with
    | none =>
      rw [Encoders.releaseEncoder_of_none hfind]
      exact h.log _
    | some e =>
      obtain ⟨he, rfl⟩ := Handles.findEntryLocked_eq_some hfind
      obtain ⟨session, heq⟩ := Encoders.releaseEncoder_of_mem F objects h he
      rw [heq]
      exact (h.dropped he session ((h.alive e he).enter.destroy F _)).log _

theorem Sound.run (F : LibFlac E) (lib : LibFlacMetadata) (objects : ℕ → Objects) (h : Sound w)
    {calls : List Call}
    (hlength : (w.calls.length : ℤ) + calls.length ≤ longMax) :
    ∃ w', Lib.run (Encoders.step F lib objects) w calls = some w' ∧ Sound w' := by
  induction calls generalizing w with
  | nil => exact ⟨w, rfl, h⟩
  | cons call calls ih =>
    rw [List.length_cons] at hlength
    obtain ⟨w₁, hstep, hsound, hcount⟩ := h.step F lib objects (by omega) call
    obtain ⟨w', hrun, hsound'⟩ := ih hsound (by omega)
    exact ⟨w', Lib.run_cons_eq_some.mpr ⟨w₁, hstep, hrun⟩, hsound'⟩

/-! ## Safety -/

/-- The encoder of an open is initialised and was not finished or deleted. -/
def Encoders.isOpen (w : Encoders E) (id : ℕ) : Bool :=
  (Usage.after (w.machines id).history).any fun u => u.stage = .ready

/-- What holds of the native encoders between any two calls. -/
structure EncodersSafe (w : Encoders E) : Prop where
  /-- No event of any context ever broke the contract. -/
  contract : ∀ id < w.opened, (Usage.after (w.machines id).history).isSome
  /-- An encoder that has a handle is open, and all its metadata blocks are alive. -/
  alive : ∀ e ∈ w.registry.entries, w.isOpen e.session = true ∧
    (w.machines e.session).env.deleted = [] ∧ (w.machines e.session).hasEncoder = true
  /-- A context without a handle holds nothing, and its blocks were deleted exactly once. -/
  ended : ∀ id < w.opened, (∀ e ∈ w.registry.entries, e.session ≠ id) → Ended (w.machines id)
  /-- The diagnostic counts the encoders that are open. -/
  count : w.activeEncodeContextCount = (List.range w.opened).countP w.isOpen

theorem Alive.isOpen {id : ℕ} (h : Alive (w.machines id)) : w.isOpen id = true := by
  obtain ⟨natives, -, references, hfollows⟩ := h
  rw [Encoders.isOpen, hfollows.history]
  rfl

theorem Ended.not_isOpen {id : ℕ} (h : Ended (w.machines id)) : w.isOpen id = false := by
  rw [Encoders.isOpen]
  rcases h.1 with hfollows | hfollows
  · rw [hfollows.history]
    rfl
  · rw [hfollows.history]
    rfl

/-- Exactly the contexts of the registry are open. -/
theorem Sound.isOpen_iff (h : Sound w) {id : ℕ} (hid : id < w.opened) :
    w.isOpen id = true ↔ id ∈ w.registry.entries.map Entry.session := by
  constructor
  · intro hopen
    by_contra hcontra
    have hended := (h.ended id hid fun e he hsession =>
      hcontra (List.mem_map.mpr ⟨e, he, hsession⟩)).not_isOpen
    rw [hopen] at hended
    cases hended
  · intro hmem
    obtain ⟨e, he, rfl⟩ := List.mem_map.mp hmem
    exact (h.alive e he).isOpen

theorem Sound.encodersSafe (h : Sound w) : EncodersSafe w where
  contract id hid := by
    by_cases hmem : ∃ e ∈ w.registry.entries, e.session = id
    · obtain ⟨e, he, rfl⟩ := hmem
      obtain ⟨natives, -, references, hfollows⟩ := h.alive e he
      rw [hfollows.history]
      rfl
    · have hunregistered : ∀ e ∈ w.registry.entries, e.session ≠ id := fun e he hsession =>
        hmem ⟨e, he, hsession⟩
      rcases (h.ended id hid hunregistered).1 with hfollows | hfollows
      · rw [hfollows.history]
        rfl
      · rw [hfollows.history]
        rfl
  alive e he := by
    obtain ⟨natives, hfilled, references, hfollows⟩ := h.alive e he
    exact ⟨(h.alive e he).isOpen, hfilled.deleted, hfollows.hasEncoder⟩
  ended := h.ended
  count := by
    rw [Encoders.activeEncodeContextCount, ← List.length_map (f := Entry.session),
      List.countP_eq_length_filter]
    refine List.Perm.length_eq ((List.perm_ext_iff_of_nodup h.contexts
      (List.nodup_range.filter _)).mpr fun id => ?_)
    rw [List.mem_filter, List.mem_range]
    constructor
    · intro hmem
      have hlt : id < w.opened := by
        obtain ⟨e, he, rfl⟩ := List.mem_map.mp hmem
        exact h.bound e he
      exact ⟨hlt, (h.isOpen_iff hlt).mpr hmem⟩
    · exact fun ⟨hlt, hopen⟩ => (h.isOpen_iff hlt).mp hopen

/-- **Native encoders.** Whatever is called with whatever handles, whatever libFLAC does in its
calls, and whatever fails in the JVM: libFLAC's encoders are used in the order of their contract,
every context without a handle has given everything back exactly once, and the others are alive. -/
theorem encoders_safe (F : LibFlac E) (lib : LibFlacMetadata) (objects : ℕ → Objects)
    (calls : List Call) (hlength : (calls.length : ℤ) ≤ longMax) :
    ∃ w, Lib.run (Encoders.step F lib objects) (Encoders.empty F) calls = some w ∧
      EncodersSafe w := by
  have hlength : ((Encoders.empty F).calls.length : ℤ) + calls.length ≤ longMax := by
    show ((0 : ℕ) : ℤ) + calls.length ≤ longMax
    omega
  obtain ⟨w, hrun, hsound⟩ := (sound_empty F).run F lib objects hlength
  exact ⟨w, hrun, hsound.encodersSafe⟩

/-- An encoder that writes the magic when it is initialised and a byte for each chunk. -/
def plainLibFlac : LibFlac Unit where
  new := ()
  setNumThreads _ _ := (.ok, ())
  set _ _ := (true, ())
  setMetadata _ _ := (true, ())
  init _ _ _ := .call (.write [0x66, 0x4c, 0x61, 0x43]) fun written =>
    .done (written == some true, ())
  processInterleaved _ _ _ := .call (.write [0]) fun written => .done (written == some true, ())
  finish _ := .done (true, ())
  delete _ := .done (true, ())
  getResolvedStateString _ := none

/-- A metadata library that refuses nothing. -/
def plainMetadata : LibFlacMetadata where
  vendor := []
  setVendorString _ := true
  appendComment _ := true
  seekTableIsLegal _ := true
  cueSheetViolation _ _ := none

/-- Streams and channels that take everything. -/
def plainObjects (_ : ℕ) : Objects := ⟨fun _ _ => .ok (), fun _ _ => .ok ⟨1, []⟩⟩

/-- A JVM and a C library in which nothing fails. -/
def plainPlatform : Platform where
  faults := ⟨fun _ _ => none, fun _ _ => false, fun _ => ""⟩
  getJavaVM := true
  newGlobalRef := .ok ()
  streamEncoderNew := true
  registryEntry := true
  unsupportedFeatureException _ := .java 0

/-- 16-bit stereo without metadata. -/
def plainRequest : NativeEncodingRequest where
  sampleRate := 44100
  channels := 2
  bitsPerSample := 16
  totalSamplesEstimate := none
  compressionLevel := 5
  verify := false
  streamableSubset := true
  blockSize := none
  container := 0
  oggSerialNumber := none
  metadata :=
    { comments := CommentMap.empty, pictures := [], applicationBlocks := [], seekTables := []
      cueSheets := [], paddingBlocks := [], unknownBlocks := [], blocks := [] }
  numThreads := 1

/-- A stream is opened, gets two frames and is finished, with a forged handle and a stale one in
between, and a second open is left alone. -/
def plainCalls : List Call :=
  [.openEncoder (.outputStream true) (some plainRequest) plainPlatform,
    .writeEncoderInterleaved 1 (some [1, -1, 2, -2]) 2 true,
    .writeEncoderInterleaved 7 (some [1, -1, 2, -2]) 2 true,
    .finishEncoder 1,
    .finishEncoder 1,
    .openEncoder (.seekableChannel true) (some plainRequest) plainPlatform]

/-- One context has ended and one is alive. -/
theorem encoders_safe_plain :
    ∃ w, Lib.run (Encoders.step plainLibFlac plainMetadata plainObjects)
        (Encoders.empty plainLibFlac) plainCalls = some w ∧
      EncodersSafe w ∧ w.opened = 2 ∧ w.activeEncodeContextCount = 1 := by
  obtain ⟨w, hrun, hsafe⟩ :=
    encoders_safe plainLibFlac plainMetadata plainObjects plainCalls (by decide)
  have hcounts : (Lib.run (Encoders.step plainLibFlac plainMetadata plainObjects)
      (Encoders.empty plainLibFlac) plainCalls).map
        (fun w => (w.opened, w.activeEncodeContextCount)) = some (2, 1) := by decide +kernel
  rw [hrun] at hcounts
  obtain ⟨hopened, hactive⟩ := Prod.mk.inj (Option.some.inj hcounts)
  exact ⟨w, hrun, hsafe, hopened, hactive⟩

end JFlac.Encode
