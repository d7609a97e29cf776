import JFlac.Basic
import JFlac.Lib.Transition
import Mathlib

/-!
# The native handle registries

`jflac_jni.c` keeps reusable decoder sessions and encoder contexts in two linked lists, each
behind its own mutex. Java only ever sees a `jlong` handle. The two registries run the same code
on different record types, so they are one definition here, with the exception text as the only
parameter; each source function keeps its own name as an instance of it.

The second half is the system: any number of native activations (a JNI call on some thread, or a
call made from inside one of its callbacks) that execute the atomic sections in any order.
Destruction is a step of its own, because the source carries it out after the mutex is left.
-/

namespace JFlac.Handles

/-- The lifetime fields of a `DecodeSession` or an `EncodeContext`. Allocations are numbered, and
a freed address that `calloc` hands out again counts as a new number. -/
structure Session where
  handle : ℤ
  referenceCount : ℕ
  released : Bool
  inUse : Bool
  /-- `decoder != NULL` (or `encoder != NULL`). -/
  hasCodec : Bool
  deriving DecidableEq, Repr

/-- A freshly opened session, before it is registered. -/
def Session.opened : Session :=
  { handle := 0, referenceCount := 0, released := false, inUse := false, hasCodec := true }

/-- One node of the registry's linked list. -/
structure Entry where
  handle : ℤ
  session : ℕ
  deriving DecidableEq, Repr

/-- What a registry mutex protects. -/
structure Registry where
  entries : List Entry
  nextHandle : ℤ
  sessions : ℕ → Session

/-- `JFLAC_FIRST_VALID_SESSION_HANDLE`. -/
def firstValidSessionHandle : ℤ := 1

def Registry.empty : Registry :=
  { entries := [], nextHandle := firstValidSessionHandle, sessions := fun _ => Session.opened }

/-- Overwrites one session record. -/
def Registry.setSession (r : Registry) (id : ℕ) (session : Session) : Registry :=
  { r with sessions := Function.update r.sessions id session }

/-! ## The functions that run under the mutex -/

/-- `find_*_entry_locked`: the first list node with this handle. -/
def findEntryLocked (entries : List Entry) (handle : ℤ) : Option Entry :=
  entries.find? fun entry => entry.handle = handle

/-- The counter after one candidate was taken: a wrap to a non-positive value restarts at one. -/
def bumpHandle (next : ℤ) : ℤ :=
  if longSucc next ≤ 0 then firstValidSessionHandle else longSucc next

/-- `reserve_*_handle_locked`: the search loop, with the number of candidates it may try. The
result is the handle and the new counter. -/
def reserveHandleLocked (entries : List Entry) : ℕ → ℤ → Option (ℤ × ℤ)
  | 0, _ => none
  | fuel + 1, next =>
    if 0 < next ∧ findEntryLocked entries next = none then
      some (next, bumpHandle next)
    else
      reserveHandleLocked entries fuel (bumpHandle next)

/-- The body of `register_*`: reserves a handle, resets the lifetime fields and links a node.
One more candidate than there are nodes is enough for the search. -/
def register (r : Registry) (id : ℕ) : Option (ℤ × Registry) :=
  (reserveHandleLocked r.entries (r.entries.length + 1) r.nextHandle).map fun (handle, next) =>
    let session :=
      { r.sessions id with handle := handle, referenceCount := 0, released := false, inUse := false }
    (handle,
      { entries := ⟨handle, id⟩ :: r.entries
        nextHandle := next
        sessions := Function.update r.sessions id session })

/-- The body of `acquire_*`: takes the reference of an idle, registered session, or raises. -/
def acquire (inactive : String) (r : Registry) (handle : ℤ) :
    Except Throwable ℕ × Registry :=
  if 0 < handle then
    match findEntryLocked r.entries handle with
    | some entry =>
      let candidate := r.sessions entry.session
      if !candidate.released && !candidate.inUse && candidate.hasCodec then
        (.ok entry.session,
          r.setSession entry.session
            { candidate with referenceCount := candidate.referenceCount + 1, inUse := true })
      else (.error (.illegalStateException inactive), r)
    | none => (.error (.illegalStateException inactive), r)
  else (.error (.illegalStateException inactive), r)

/-- The locked part of `release_*_reference`; the flag is `should_destroy`. -/
def releaseReference (r : Registry) (id : ℕ) : Bool × Registry :=
  let session := r.sessions id
  let referenceCount :=
    if 0 < session.referenceCount then session.referenceCount - 1 else session.referenceCount
  (session.released && referenceCount == 0,
    r.setSession id { session with referenceCount := referenceCount, inUse := false })

/-- `remove_*`: unlinks the node and hands the session over when no operation holds it. -/
def remove (r : Registry) (handle : ℤ) : Option ℕ × Registry :=
  if handle ≤ 0 then (none, r)
  else
    match findEntryLocked r.entries handle with
    | some entry =>
      let session := r.sessions entry.session
      (if session.referenceCount = 0 then some entry.session else none,
        { entries := r.entries.eraseP fun e => e.handle = handle
          nextHandle := r.nextHandle
          sessions := Function.update r.sessions entry.session { session with released := true } })
    | none => (none, r)

/-! ### The decoder registry -/

def findDecodeSessionEntryLocked := findEntryLocked
def reserveDecodeSessionHandleLocked := reserveHandleLocked
def registerDecodeSession := register
def acquireDecodeSession := acquire "The native FLAC decoder handle is not active."
def releaseDecodeSessionReference := releaseReference
def removeDecodeSession := remove

/-! ### The encoder registry -/

def findEncodeContextEntryLocked := findEntryLocked
def reserveEncodeContextHandleLocked := reserveHandleLocked
def registerEncodeContext := register
def acquireEncodeContext := acquire "The native FLAC encoder handle is not active."
def releaseEncodeContextReference := releaseReference
def removeEncodeContext := remove

/-! ## Activations -/

/-- Which of the two registries a system is about. -/
inductive Kind where
  | decoder
  | encoder
  deriving DecidableEq, Repr

/-- Where one native activation stands between two atomic sections. -/
inductive Phase where
  /-- No reference held. -/
  | idle
  /-- Inside an operation that acquired the session. -/
  | holding (id : ℕ)
  /-- Inside `finishEncoder`, after the acquire and before the handle is removed. -/
  | finishing (id : ℕ) (handle : ℤ)
  /-- Told to destroy the session, outside the mutex. -/
  | destroying (id : ℕ)
  deriving DecidableEq, Repr

/-- The whole system. The last four fields are bookkeeping: allocations handed out, how often each
session was destroyed, and the handles issued and removed so far. -/
structure System (Activation : Type) where
  registry : Registry
  phase : Activation → Phase
  nextId : ℕ
  destroyed : ℕ → ℕ
  issued : List ℤ
  removed : List ℤ

def System.initial {Activation : Type} : System Activation :=
  { registry := Registry.empty, phase := fun _ => .idle, nextId := 0, destroyed := fun _ => 0,
    issued := [], removed := [] }

/-- The atomic steps. A handle is whatever `jlong` the Java side passes. -/
inductive Action (Activation : Type) where
  /-- A session is opened and `register_*` succeeds. -/
  | register
  /-- An operation starts with `acquire_*`; a refusal raises and leaves the activation idle. -/
  | acquire (a : Activation) (handle : ℤ)
  /-- `finishEncoder` starts with `acquire_encode_context`. -/
  | beginFinish (a : Activation) (handle : ℤ)
  /-- `finishEncoder` removes its own handle and ignores the result. -/
  | removeFinishing (a : Activation)
  /-- The operation leaves through `release_*_reference`. -/
  | releaseReference (a : Activation)
  /-- `releaseDecoder` or `releaseEncoder` enters through `remove_*`. -/
  | remove (a : Activation) (handle : ℤ)
  /-- The activation carries out the destruction it was told to do. -/
  | destroy (a : Activation)

variable {Activation : Type} [DecidableEq Activation]

/-- `acquire_*` of the given registry. -/
def acquireOf : Kind → Registry → ℤ → Except Throwable ℕ × Registry
  | .decoder => acquireDecodeSession
  | .encoder => acquireEncodeContext

/-- The handles that `remove` takes out of the registry: none or the one it was given. -/
def removedBy (r : Registry) (handle : ℤ) : List ℤ :=
  if 0 < handle ∧ (findEntryLocked r.entries handle).isSome then [handle] else []

def System.setPhase (s : System Activation) (a : Activation) (p : Phase) : System Activation :=
  { s with phase := Function.update s.phase a p }

/-- One atomic step of the system; `none` when the activation is not at that point. -/
def step (kind : Kind) (s : System Activation) : Action Activation → Option (System Activation)
  | .register =>
    (register s.registry s.nextId).map fun (handle, registry) =>
      { s with registry := registry, nextId := s.nextId + 1, issued := s.issued ++ [handle] }
  | .acquire a handle =>
    match s.phase a with
    | .idle =>
      match acquireOf kind s.registry handle with
      | (.ok id, registry) => some ({ s with registry := registry }.setPhase a (.holding id))
      | (.error _, registry) => some { s with registry := registry }
    | _ => none
  | .beginFinish a handle =>
    match kind, s.phase a with
    | .encoder, .idle =>
      match acquireOf kind s.registry handle with
      | (.ok id, registry) =>
        some ({ s with registry := registry }.setPhase a (.finishing id handle))
      | (.error _, registry) => some { s with registry := registry }
    | _, _ => none
  | .removeFinishing a =>
    match s.phase a with
    | .finishing id handle =>
      some ({ s with registry := (remove s.registry handle).2
                     removed := s.removed ++ removedBy s.registry handle }.setPhase a (.holding id))
    | _ => none
  | .releaseReference a =>
    match s.phase a with
    | .holding id =>
      match releaseReference s.registry id with
      | (true, registry) => some ({ s with registry := registry }.setPhase a (.destroying id))
      | (false, registry) => some ({ s with registry := registry }.setPhase a .idle)
    | _ => none
  | .remove a handle =>
    match s.phase a with
    | .idle =>
      let s' := { s with registry := (remove s.registry handle).2
                         removed := s.removed ++ removedBy s.registry handle }
      match (remove s.registry handle).1 with
      | some id => some (s'.setPhase a (.destroying id))
      | none => some s'
    | _ => none
  | .destroy a =>
    match s.phase a with
    | .destroying id =>
      some ({ s with registry := s.registry.setSession id { s.registry.sessions id with hasCodec := false }
                     destroyed := Function.update s.destroyed id (s.destroyed id + 1) }.setPhase a .idle)
    | _ => none

/-- Number of registrations among the labels of a run. -/
def registrations (acts : List (Action Activation)) : ℕ :=
  acts.countP fun a => match a with
    | .register => true
    | _ => false

end JFlac.Handles
