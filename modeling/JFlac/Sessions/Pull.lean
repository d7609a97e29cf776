import JFlac.Handles.Model
import JFlac.Lib.Monitor
import JFlac.Sessions.Cleanup

/-!
# A pull session and its native decoder

`NativeFlacPullDecodingSession` holds its monitor for the whole of a native read, and the monitor is
re-entrant: a source callback may call `readInterleaved` or `close` on the session that is calling
it. The model composes the Kotlin wrapper with the decoder registry. A thread is a stack of frames,
and a step is one locked section of the wrapper, one section under the registry mutex, one native
destruction, or one thing a native read does to the context between two callbacks.
-/

namespace JFlac.Sessions.Pull

open JFlac.Handles JFlac.Lib

/-! ## The Kotlin wrapper -/

/-- The fields of `NativeFlacPullDecodingSession`; `channels` is `streamInfo.channels`. -/
structure PullSession where
  active : Bool
  cleanup : Cleanup
  channels : ℕ
  deriving DecidableEq, Repr

/-- The arguments of `readInterleaved`: an array, known by its identity and size, and a limit. -/
structure ReadRequest where
  interleavedSamples : ℕ
  size : ℕ
  maxFrames : ℤ
  deriving DecidableEq, Repr

/-- What an inactive session throws. -/
def noLongerActive : Throwable :=
  .illegalStateException "The FLAC pull decoding session is no longer active."

/-- What a refused handle throws. -/
def handleNotActive : Throwable :=
  .illegalStateException "The native FLAC decoder handle is not active."

/-- The checks of `readInterleaved` before its native call: the exception, or the handle to read
from, or nothing for an empty request. -/
def PullSession.check (p : PullSession) (request : ReadRequest) : Except Throwable (Option ℤ) :=
  if p.active = false ∨ p.cleanup.currentHandle = 0 then .error noLongerActive
  else if request.maxFrames < 0 then
    .error (.illegalArgumentException "Max frames must be non-negative.")
  else if (intMax : ℤ) < request.maxFrames * p.channels then
    .error (.illegalArgumentException "Interleaved sample buffer must fit maxFrames * channels.")
  else if (request.size : ℤ) < request.maxFrames * p.channels then
    .error (.illegalArgumentException "Interleaved sample buffer must fit maxFrames * channels.")
  else if request.maxFrames = 0 then .ok none
  else .ok (some p.cleanup.currentHandle)

/-- `active = false` and `claimHandle`, which both `close` and a failed read begin with. -/
def PullSession.deactivate (p : PullSession) : ℤ × PullSession :=
  (p.cleanup.claimHandle.1, { p with active := false, cleanup := p.cleanup.claimHandle.2 })

/-! ## The native context -/

/-- The global reference a pull context keeps: each of the three open methods sets its own. -/
inductive PullSource where
  | file
  | seekableChannel (reference : ℕ)
  | inputStream (reference : ℕ)
  deriving DecidableEq, Repr

/-- The reference to delete, when there is one. -/
def PullSource.reference : PullSource → Option ℕ
  | .file => none
  | .seekableChannel reference | .inputStream reference => some reference

/-- The pull part of `DecodeContext`. Blocks of memory and references are known by their number. -/
structure PullContext where
  pullOutput : Option ℕ
  pullRequestedFrames : ℤ
  pullWrittenFrames : ℤ
  pullEndOfStream : Bool
  pullPendingSamples : Option ℕ
  source : PullSource
  deriving DecidableEq, Repr

/-- A context that was opened and not read from. -/
def PullContext.opened (source : PullSource) : PullContext :=
  { pullOutput := none, pullRequestedFrames := 0, pullWrittenFrames := 0, pullEndOfStream := false,
    pullPendingSamples := none, source := source }

/-- What a native read stores into the context before it starts to decode. -/
def PullContext.prepare (c : PullContext) (request : ReadRequest) : PullContext :=
  { c with
    pullOutput := some request.interleavedSamples
    pullRequestedFrames := request.maxFrames
    pullWrittenFrames := 0 }

/-- The loop of `readPullDecoderInterleaved` may stop: it was entered, and the request is met or the
stream is over. -/
def PullContext.Complete (c : PullContext) : Prop :=
  c.pullOutput ≠ none ∧ (c.pullRequestedFrames ≤ c.pullWrittenFrames ∨ c.pullEndOfStream = true)

instance (c : PullContext) : Decidable c.Complete := inferInstanceAs (Decidable (_ ∧ _))

/-- What a native read ends with: the exception it has raised, or the number of frames it wrote. -/
def PullContext.result (c : PullContext) (failure : Option Throwable) : Except Throwable ℤ :=
  match failure with
  | some e => .error e
  | none =>
    .ok (if 0 < c.pullWrittenFrames then c.pullWrittenFrames
      else if c.pullEndOfStream then -1 else 0)

/-! ## Stacks -/

/-- What follows the destruction of a session. -/
inductive After where
  /-- It was carried out by the read that held the last reference. -/
  | returning (outcome : Except Throwable ℤ)
  /-- It was part of `releasePullDecoder`, called by the wrapper. -/
  | cleaning (failure : Option Throwable)
  /-- It was part of `releasePullDecoder`, called by the Cleaner action. -/
  | swept (failure : Option Throwable)

/-- A call in progress. A frame with a `failure` belongs to a `readInterleaved` that is going to
throw it, a frame without one to a `close` or to the Cleaner. -/
inductive Frame where
  /-- In `readPullDecoderInterleaved`, with a reference to the session. -/
  | reading (id : ℕ) (request : ReadRequest)
  /-- The native read is over, and `readInterleaved` takes its outcome. -/
  | returning (outcome : Except Throwable ℤ)
  /-- About to call the releaser with a claimed handle, as the wrapper or as the Cleaner action. -/
  | releasing (sweep : Bool) (failure : Option Throwable) (handle : ℤ)
  /-- The releaser has thrown. -/
  | restoring (failure : Option Throwable) (handle : ℤ) (releaseFailure : Throwable)
  /-- About to call `cleanable.clean()`. -/
  | cleaning (failure : Option Throwable)
  /-- In `destroy_decode_session`, outside the mutex. -/
  | destroying (id : ℕ) (after : After)

/-- What a call that failed with `failure`, or not at all, ends with. -/
def outcomeOf (failure : Option Throwable) : Except Throwable ℤ :=
  match failure with
  | some t => .error t
  | none => .ok 0

/-- The exception of an outcome. -/
def exceptionOf : Except Throwable ℤ → Option Throwable
  | .ok _ => none
  | .error t => some t

/-- The exception a frame is going to throw. -/
def After.failure : After → Option Throwable
  | .returning outcome => exceptionOf outcome
  | .cleaning failure | .swept failure => failure

/-- The exception a frame is going to throw. -/
def Frame.failure : Frame → Option Throwable
  | .reading _ _ => none
  | .returning outcome => exceptionOf outcome
  | .releasing _ failure _ | .restoring failure _ _ | .cleaning failure => failure
  | .destroying _ after => after.failure

/-- The frame is inside the monitor: `readInterleaved` never leaves it, `close` releases outside. -/
def After.locked : After → Bool
  | .returning _ => true
  | .cleaning failure | .swept failure => failure.isSome

/-- The frame is inside the monitor. -/
def Frame.locked : Frame → Bool
  | .reading _ _ | .returning _ => true
  | .releasing _ failure _ | .restoring failure _ _ | .cleaning failure => failure.isSome
  | .destroying _ after => after.locked

/-- A native read. -/
def Frame.isReading : Frame → Bool
  | .reading _ _ => true
  | _ => false

/-! ## The system -/

/-- What native code frees: the session object, blocks of pending PCM, global references. -/
inductive Resource where
  | session
  | block (number : ℕ)
  | globalRef (number : ℕ)
  deriving DecidableEq, Repr

/-- One pull session with the threads that use it. `nextBlock` numbers the blocks of pending PCM;
the fields after it are bookkeeping. -/
structure System (Thread : Type) where
  session : PullSession
  monitor : Monitor Thread
  stack : Thread → List Frame
  /-- What the last finished call of a thread ended with. -/
  outcome : Thread → Option (Except Throwable ℤ)
  /-- The Cleaner action has run; it never runs twice. -/
  cleaned : Bool
  registry : Registry
  context : PullContext
  nextBlock : ℕ
  /-- How often each resource was freed. -/
  frees : Resource → ℕ
  /-- How often a release of the handle has succeeded. -/
  released : ℕ
  closeCalled : Bool
  /-- A read has failed in native code. -/
  readFailed : Bool
  /-- A release has failed, and its handle was restored or given up. -/
  releaseFailed : Bool

/-- An open session: its handle was registered in `registry`. -/
def System.initial {Thread : Type} (handle : ℤ) (channels : ℕ) (registry : Registry)
    (source : PullSource) : System Thread :=
  { session := { active := true, cleanup := ⟨handle⟩, channels := channels }
    monitor := .free, stack := fun _ => [], outcome := fun _ => none, cleaned := false
    registry := registry, context := .opened source, nextBlock := 0, frees := fun _ => 0
    released := 0, closeCalled := false, readFailed := false, releaseFailed := false }

variable {Thread : Type} [DecidableEq Thread]

/-- The frames of one thread change. -/
def System.setStack (s : System Thread) (t : Thread) (frames : List Frame) : System Thread :=
  { s with stack := Function.update s.stack t frames }

/-- The frame of a call goes away, and with it the monitor it was inside. -/
def System.finish (s : System Thread) (t : Thread) (f : Frame) (rest : List Frame)
    (outcome : Except Throwable ℤ) : System Thread :=
  { s.setStack t rest with
    monitor := if f.locked then s.monitor.exit else s.monitor
    outcome := Function.update s.outcome t (some outcome) }

/-- A call that ends in the locked section it began with. -/
def System.answer (s : System Thread) (t : Thread) (outcome : Except Throwable ℤ) :
    System Thread :=
  { s with outcome := Function.update s.outcome t (some outcome) }

/-- A resource is freed. -/
def System.free (s : System Thread) (r : Resource) : System Thread :=
  { s with frees := Function.update s.frees r (s.frees r + 1) }

/-- `clear_decode_pull_pending`. -/
def System.clearDecodePullPending (s : System Thread) : System Thread :=
  match s.context.pullPendingSamples with
  | none => s
  | some number =>
    { s.free (.block number) with context := { s.context with pullPendingSamples := none } }

/-- `clear_decode_seekable_channel`. -/
def System.clearDecodeSeekableChannel (s : System Thread) : System Thread :=
  match s.context.source with
  | .seekableChannel reference =>
    { s.free (.globalRef reference) with context := { s.context with source := .file } }
  | _ => s

/-- `clear_decode_input_stream`. -/
def System.clearDecodeInputStream (s : System Thread) : System Thread :=
  match s.context.source with
  | .inputStream reference =>
    { s.free (.globalRef reference) with context := { s.context with source := .file } }
  | _ => s

/-- `destroy_decode_session`. -/
def System.destroyDecodeSession (s : System Thread) (id : ℕ) : System Thread :=
  let s := { s with registry := s.registry.setSession id
                      { s.registry.sessions id with hasCodec := false } }
  s.clearDecodeSeekableChannel.clearDecodeInputStream.clearDecodePullPending.free .session

/-- A thread may call the session when it is in no call, or in a callback of a native read. -/
def mayCall : List Frame → Bool
  | [] | .reading _ _ :: _ => true
  | _ => false

/-- The steps. -/
inductive Action (Thread : Type) where
  /-- `readInterleaved` up to the acquire of the native session. -/
  | read (t : Thread) (request : ReadRequest)
  /-- The native read stores its request into the context. -/
  | prepare (t : Thread)
  /-- `decode_pull_write_callback` keeps a decoded block. -/
  | keepPending (t : Thread)
  /-- `drain_decode_pull_pending` copies frames to Java. -/
  | drain (t : Thread) (frames : ℕ)
  /-- `drain_decode_pull_pending` has delivered the whole block. -/
  | clearPending (t : Thread)
  | endOfStream (t : Thread)
  /-- The native read gives its reference back and returns, or raises `failure`. -/
  | leave (t : Thread) (failure : Option Throwable)
  /-- `readInterleaved` returns, or enters its `catch` block. -/
  | takeOutcome (t : Thread)
  /-- The locked section of `close`. -/
  | close (t : Thread)
  /-- `remove_decode_session`, called by `releasePullDecoder`. -/
  | release (t : Thread)
  /-- The releaser throws before it gets to native code. -/
  | failRelease (t : Thread) (releaseFailure : Throwable)
  | destroy (t : Thread)
  /-- `restoreHandle` after a failed release. -/
  | restore (t : Thread)
  | clean (t : Thread)
  /-- The Cleaner thread starts the action of a session that no call can reach. -/
  | cleanerRun (t : Thread)
  /-- The sessions of other handles change the registry. -/
  | others (registry : Registry)

/-- What a release attempt that is over leads to. -/
def afterRelease (sweep : Bool) (failure : Option Throwable) : After :=
  if sweep then .swept failure else .cleaning failure

/-- One thing a native read does to the context. -/
def System.inRead (s : System Thread) (t : Thread) (change : ReadRequest → System Thread) :
    Option (System Thread) :=
  match s.stack t with
  | .reading _ request :: _ => some (change request)
  | _ => none

/-- The next frame after a destruction, or the end of the call. -/
def System.continue (s : System Thread) (t : Thread) (f : Frame) (rest : List Frame) :
    After → System Thread
  | .returning outcome => s.setStack t (.returning outcome :: rest)
  | .cleaning failure => s.setStack t (.cleaning failure :: rest)
  | .swept failure => s.finish t f rest (outcomeOf failure)

/-- The Cleaner action up to its release: the handle it has claimed. -/
def System.runCleanup (s : System Thread) : ℤ × System Thread :=
  (s.session.cleanup.claimHandle.1,
    { s with
      cleaned := true
      session := { s.session with cleanup := s.session.cleanup.claimHandle.2 } })

/-- One step; `none` when the thread is not at that point or has to wait for the monitor. -/
def step (s : System Thread) : Action Thread → Option (System Thread)
  | .read t request =>
    if mayCall (s.stack t) then
      match s.monitor.enter t with
      | none => none
      | some monitor =>
        match s.session.check request with
        | .error e => some (s.answer t (.error e))
        | .ok none => some (s.answer t (.ok 0))
        | .ok (some handle) =>
          match acquireDecodeSession s.registry handle with
          | (.ok id, registry) =>
            some ({ s with monitor := monitor, registry := registry }.setStack t
              (.reading id request :: s.stack t))
          | (.error e, registry) =>
            some ({ s with monitor := monitor, registry := registry, readFailed := true }.setStack t
              (.returning (.error e) :: s.stack t))
    else none
  | .prepare t => s.inRead t fun request => { s with context := s.context.prepare request }
  | .keepPending t =>
    -- a block that is still pending makes the callback raise instead
    if s.context.pullPendingSamples = none then
      s.inRead t fun _ =>
        { s with
          context := { s.context with pullPendingSamples := some s.nextBlock }
          nextBlock := s.nextBlock + 1 }
    else none
  | .drain t frames =>
    s.inRead t fun _ =>
      { s with
        context := { s.context with pullWrittenFrames := s.context.pullWrittenFrames + frames } }
  | .clearPending t => s.inRead t fun _ => s.clearDecodePullPending
  | .endOfStream t =>
    s.inRead t fun _ => { s with context := { s.context with pullEndOfStream := true } }
  | .leave t failure =>
    match s.stack t with
    | .reading id _ :: rest =>
      if failure = none ∧ ¬ s.context.Complete then none
      else
        let outcome := s.context.result failure
        let s' := { s with
          context := { s.context with pullOutput := none }
          registry := (releaseDecodeSessionReference s.registry id).2
          readFailed := s.readFailed || failure.isSome }
        if (releaseDecodeSessionReference s.registry id).1 then
          some (s'.setStack t (.destroying id (.returning outcome) :: rest))
        else some (s'.setStack t (.returning outcome :: rest))
    | _ => none
  | .takeOutcome t =>
    match s.stack t with
    | .returning (.ok n) :: rest => some (s.finish t (.returning (.ok n)) rest (.ok n))
    | .returning (.error e) :: rest =>
      let s' := { s with session := s.session.deactivate.2 }
      if s.session.deactivate.1 = 0 then some (s'.setStack t (.cleaning (some e) :: rest))
      else some (s'.setStack t (.releasing false (some e) s.session.deactivate.1 :: rest))
    | _ => none
  | .close t =>
    if mayCall (s.stack t) then
      match s.monitor.enter t with
      | none => none
      | some _ =>
        let s' := { s with session := s.session.deactivate.2, closeCalled := true }
        if s.session.deactivate.1 = 0 then some (s'.answer t (.ok 0))
        else some (s'.setStack t (.releasing false none s.session.deactivate.1 :: s.stack t))
    else none
  | .release t =>
    match s.stack t with
    | .releasing sweep failure handle :: rest =>
      let s' := { s with
        registry := (removeDecodeSession s.registry handle).2
        released := s.released + 1 }
      match (removeDecodeSession s.registry handle).1 with
      | some id => some (s'.setStack t (.destroying id (afterRelease sweep failure) :: rest))
      | none =>
        some (s'.continue t (.releasing sweep failure handle) rest (afterRelease sweep failure))
    | _ => none
  | .failRelease t releaseFailure =>
    match s.stack t with
    | .releasing sweep failure handle :: rest =>
      -- the Cleaner action swallows the exception and keeps the claim
      if sweep then
        some ({ s with releaseFailed := true }.finish t (.releasing sweep failure handle) rest
          (outcomeOf failure))
      else some (s.setStack t (.restoring failure handle releaseFailure :: rest))
    | _ => none
  | .destroy t =>
    match s.stack t with
    | .destroying id after :: rest =>
      some ((s.destroyDecodeSession id).continue t (.destroying id after) rest after)
    | _ => none
  | .restore t =>
    match s.stack t with
    | .restoring failure handle releaseFailure :: rest =>
      let cleanup := (s.session.cleanup.restoreHandle handle).2
      let s' := { s with session := { s.session with cleanup := cleanup }, releaseFailed := true }
      some (s'.finish t (.restoring failure handle releaseFailure) rest
        (.error (failure.getD releaseFailure)))
    | _ => none
  | .clean t =>
    match s.stack t with
    | .cleaning failure :: rest =>
      if s.cleaned then some (s.finish t (.cleaning failure) rest (outcomeOf failure))
      else if s.runCleanup.1 = 0 then
        some (s.runCleanup.2.finish t (.cleaning failure) rest (outcomeOf failure))
      else some (s.runCleanup.2.setStack t (.releasing true failure s.runCleanup.1 :: rest))
    | _ => none
  | .cleanerRun t =>
    if s.cleaned ∨ s.stack t ≠ [] then none
    else if s.runCleanup.1 = 0 then some s.runCleanup.2
    else some (s.runCleanup.2.setStack t [.releasing true none s.runCleanup.1])
  | .others registry => some { s with registry := registry }

end JFlac.Sessions.Pull
