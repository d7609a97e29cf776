import JFlac.Pcm.Chunk
import JFlac.Sessions.Cleanup

/-!
# Encoding sessions

`NativeFlacEncodingSession` runs every method under one re-entrant lock, so that calls follow one
another except for those made from inside a native call, by the write or flush callbacks of the
output. A run is a list of calls, and each call carries what its native calls do: the calls made
back into the session, and the failure, if any.
-/

namespace JFlac.Sessions

open Pcm

/-! ## The session -/

/-- The native functions of an encoder handle. -/
inductive NativeOp where
  | writeEncoderInterleaved
  | finishEncoder
  | releaseEncoder
  deriving DecidableEq, Repr

/-- What the session does to its handle. -/
inductive EncoderEvent where
  | entered (op : NativeOp) (handle : ℤ)
  | left (op : NativeOp) (handle : ℤ) (failure : Option Throwable)
  deriving DecidableEq, Repr

/-- `SessionState` of `NativeFlacEncodingSession`. -/
inductive EncodingState where
  | active
  | writing
  | finishing
  | finished
  | failed
  deriving DecidableEq, Repr

/-- `NativeFlacEncodingSession`, with a record of its native calls. -/
structure EncodingSession where
  format : AudioFormat
  state : EncodingState
  cleanup : Cleanup
  /-- The Cleaner action has run. -/
  cleaned : Bool
  log : List EncoderEvent
  deriving DecidableEq, Repr

/-- An open session. -/
def EncodingSession.opened (format : AudioFormat) (handle : ℤ) : EncodingSession :=
  { format := format, state := .active, cleanup := ⟨handle⟩, cleaned := false, log := [] }

/-- How a method ends: with an exception and what was added to it as suppressed. -/
inductive EncoderResult where
  | returned
  | threw (exception : Throwable) (suppressed : List Throwable)
  deriving DecidableEq, Repr

/-- A native call on the session's handle: its failure, and the session after the calls made from
inside it. -/
abbrev NativeCall := NativeOp → ℤ → EncodingSession → Option Throwable × EncodingSession

/-- The exception text of a session that takes no more PCM. -/
def inactiveEncoderMessage : String := "The FLAC encoding session is no longer active."

namespace EncodingSession

/-- Records a native call. -/
def record (p : EncodingSession) (event : EncoderEvent) : EncodingSession :=
  { p with log := p.log ++ [event] }

/-- Moves the state machine. -/
def withState (p : EncodingSession) (state : EncodingState) : EncodingSession :=
  { p with state := state }

/-- Replaces the ownership token. -/
def withCleanup (p : EncodingSession) (cleanup : Cleanup) : EncodingSession :=
  { p with cleanup := cleanup }

/-- `cleanable.clean()`: the Cleaner action, which runs at most once and swallows a failure. -/
def clean (sweep : NativeCall) (p : EncodingSession) : EncodingSession :=
  if p.cleaned then p
  else
    let handle := p.cleanup.claimHandle.1
    let p := { p with cleaned := true, cleanup := p.cleanup.claimHandle.2 }
    if handle = 0 then p else (sweep .releaseEncoder handle p).2

/-- Puts a claimed handle back. -/
def restoreHandle (p : EncodingSession) (handle : ℤ) : EncodingSession :=
  p.withCleanup (p.cleanup.restoreHandle handle).2

/-- `releaseClaimedNativeHandle`, then `cleanable.clean()`. -/
def releaseClaimedNativeHandle (release sweep : NativeCall) (handle : ℤ) (p : EncodingSession) :
    EncoderResult × EncodingSession :=
  let released := release .releaseEncoder handle p
  match released.1 with
  | some failure => (.threw failure [], released.2.restoreHandle handle)
  | none => (.returned, released.2.clean sweep)

/-- `releaseClaimedNativeHandleAfterFailure`, then `cleanable.clean()` if it succeeded: what is
suppressed, and the session. -/
def releaseAfterFailure (release sweep : NativeCall) (handle : ℤ) (failure : Throwable)
    (p : EncodingSession) : List Throwable × EncodingSession :=
  if handle = 0 then ([], p.clean sweep)
  else
    let released := release .releaseEncoder handle p
    match released.1 with
    | none => ([], released.2.clean sweep)
    | some releaseFailure =>
      (if releaseFailure.sameObject failure then [] else [releaseFailure],
        released.2.restoreHandle handle)

/-- `failAndRelease`. -/
def failAndRelease (release sweep : NativeCall) (failure : Throwable) (p : EncodingSession) :
    EncoderResult × EncodingSession :=
  let handle := p.cleanup.claimHandle.1
  let released := ((p.withCleanup p.cleanup.claimHandle.2).withState .failed).releaseAfterFailure
    release sweep handle failure
  (.threw failure released.1, released.2)

/-- `writeInterleaved`. -/
def writeInterleaved (native release sweep : NativeCall) (samples : List ℤ) (frames : ℤ)
    (p : EncodingSession) : EncoderResult × EncodingSession :=
  -- `ensureActiveForWrite`
  if p.state ≠ .active ∨ p.cleanup.currentHandle = 0 then
    (.threw (.illegalStateException inactiveEncoderMessage) [], p)
  else
    match validateInterleavedPcmChunk samples frames p.format with
    | some message => (.threw (.illegalArgumentException message) [], p)
    | none =>
      if frames = 0 then (.returned, p)
      else
        let write :=
          native .writeEncoderInterleaved p.cleanup.currentHandle (p.withState .writing)
        match write.1 with
        | none => (.returned, write.2.withState .active)
        | some failure => write.2.failAndRelease release sweep failure

/-- `finish`, and `close`. -/
def finish (native release sweep : NativeCall) (p : EncodingSession) :
    EncoderResult × EncodingSession :=
  let handle := p.cleanup.claimHandle.1
  let taken := p.withCleanup p.cleanup.claimHandle.2
  match p.state with
  | .finished | .finishing => (.returned, p)
  | .failed =>
    if handle = 0 then (.returned, taken)
    else taken.releaseClaimedNativeHandle release sweep handle
  | .writing =>
    (.threw (.illegalStateException
      "The FLAC encoding session cannot finish from inside an active write.") [], p)
  | .active =>
    if handle = 0 then
      (.threw (.illegalStateException
        "The FLAC encoding session lost ownership of its native handle.") [],
        taken.withState .finishing)
    else
      let finish := native .finishEncoder handle (taken.withState .finishing)
      match finish.1 with
      | none => (.returned, (finish.2.withState .finished).clean sweep)
      | some failure =>
        let released :=
          (finish.2.withState .failed).releaseAfterFailure release sweep handle failure
        (.threw failure released.1, released.2)

end EncodingSession

/-! ## Calls -/

mutual

/-- A call of a session method, with the behaviour of the native calls it may lead to: the call
itself, the release after a failure, and the one that `cleanable.clean()` may make. -/
inductive EncoderCall where
  | writeInterleaved (samples : List ℤ) (frames : ℤ) (native release sweep : Native)
  | finish (native release sweep : Native)

/-- A native call: the calls its callbacks make, then its failure. -/
inductive Native where
  | runs (nested : EncoderCalls) (failure : Option Throwable)

/-- The calls made from inside a native call, in order. -/
inductive EncoderCalls where
  | nil
  | cons (call : EncoderCall) (rest : EncoderCalls)

end

mutual

/-- Makes a call. -/
def EncoderCall.run : EncoderCall → EncodingSession → EncoderResult × EncodingSession
  | .writeInterleaved samples frames native release sweep =>
    EncodingSession.writeInterleaved native.run release.run sweep.run samples frames
  | .finish native release sweep => EncodingSession.finish native.run release.run sweep.run

/-- A native call on a handle, with the calls made from inside it. -/
def Native.run : Native → NativeOp → ℤ → EncodingSession → Option Throwable × EncodingSession
  | .runs nested failure => fun op handle p =>
    (failure, (nested.run (p.record (.entered op handle))).record (.left op handle failure))

/-- The calls made from inside a native call; what they raise stays with the callback. -/
def EncoderCalls.run : EncoderCalls → EncodingSession → EncodingSession
  | .nil => fun p => p
  | .cons call rest => fun p => rest.run (call.run p).2

end

/-- A run of calls, one after the other. -/
def runCalls (calls : List EncoderCall) (p : EncodingSession) : EncodingSession :=
  calls.foldl (fun p call => (call.run p).2) p

/-! ## Calls made from inside a native call -/

namespace EncodingSession

/-- A session in which a method does nothing but return or raise: one that is inside a native call,
or one that has given its handle away. -/
def Blocked (p : EncodingSession) : Prop :=
  p.state ≠ .active ∧ (p.state = .failed → p.cleanup = ⟨0⟩)

/-- The events of a native call. -/
def callEvents (op : NativeOp) (handle : ℤ) (failure : Option Throwable) : List EncoderEvent :=
  [.entered op handle, .left op handle failure]

/-- A native call on the record. -/
def recordCall (p : EncodingSession) (op : NativeOp) (handle : ℤ) (failure : Option Throwable) :
    EncodingSession :=
  (p.record (.entered op handle)).record (.left op handle failure)

/-- The session after the Cleaner action found nothing to release. -/
def swept (p : EncodingSession) : EncodingSession := { p with cleaned := true }

theorem clean_of_zero (sweep : NativeCall) {p : EncodingSession} (h : p.cleanup = ⟨0⟩) :
    p.clean sweep = p.swept := by
  obtain ⟨format, state, cleanup, cleaned, log⟩ := p
  obtain rfl : cleanup = ⟨0⟩ := h
  cases cleaned <;> rfl

end EncodingSession

open EncodingSession

/-- The failure of a native call. -/
def Native.failure : Native → Option Throwable
  | .runs _ failure => failure

theorem EncoderCall.run_blocked (call : EncoderCall) {p : EncodingSession} (h : p.Blocked) :
    (call.run p).2 = p := by
  cases call with
  | writeInterleaved samples frames native release sweep =>
    unfold EncoderCall.run EncodingSession.writeInterleaved
    rw [if_pos (.inl h.1)]
  | finish native release sweep =>
    unfold EncoderCall.run EncodingSession.finish
    obtain ⟨hactive, hfailed⟩ := h
    cases hstate : p.state with
    | active => exact absurd hstate hactive
    | failed =>
      have hcleanup := hfailed hstate
      have htaken : p.withCleanup p.cleanup.claimHandle.2 = p := by
        obtain ⟨format, state, cleanup, cleaned, log⟩ := p
        obtain rfl : cleanup = ⟨0⟩ := hcleanup
        rfl
      dsimp only
      rw [if_pos (by rw [hcleanup]; rfl), htaken]
    | _ => rfl

theorem EncoderCalls.run_blocked (calls : EncoderCalls) {p : EncodingSession} (h : p.Blocked) :
    calls.run p = p := by
  match calls with
  | .nil => rfl
  | .cons call rest =>
    show rest.run (call.run p).2 = p
    rw [call.run_blocked h]
    exact rest.run_blocked h

/-- Whatever its callbacks try, a native call on a blocked session only leaves its record. -/
theorem Native.run_blocked (native : Native) (op : NativeOp) (handle : ℤ) {p : EncodingSession}
    (h : p.Blocked) : native.run op handle p =
      (native.failure, p.recordCall op handle native.failure) := by
  obtain ⟨nested, failure⟩ := native
  show (failure, (nested.run (p.record (.entered op handle))).record (.left op handle failure)) = _
  rw [nested.run_blocked (p := p.record (.entered op handle)) h]
  rfl

/-! ## The record of a session -/

namespace EncoderEvent

/-- The event after which the encoder must not be used: a finish was entered, or a call failed. -/
def ends : EncoderEvent → Bool
  | .entered .finishEncoder _ => true
  | .left _ _ (some _) => true
  | _ => false

/-- The event uses the encoder. -/
def uses : EncoderEvent → Bool
  | .entered .writeEncoderInterleaved _ | .entered .finishEncoder _ => true
  | _ => false

/-- `NativeAccess.finishEncoder` was invoked. -/
def finishes : EncoderEvent → Bool
  | .entered .finishEncoder _ => true
  | _ => false

/-- The handle was finished or released. -/
def consumes : EncoderEvent → Bool
  | .left .finishEncoder _ none | .left .releaseEncoder _ none => true
  | _ => false

/-- The handle the event is about. -/
def handle : EncoderEvent → ℤ
  | .entered _ handle | .left _ handle _ => handle

end EncoderEvent

/-- Once the encoder must not be used, it is not used. -/
def Ordered (log : List EncoderEvent) : Prop :=
  log.Pairwise fun earlier later => earlier.ends = true → later.uses = false

/-- How often the handle was consumed. -/
def consumptions (log : List EncoderEvent) : ℕ := log.countP EncoderEvent.consumes

/-- Where a session stands between two calls. -/
inductive Standing (handle : ℤ) (p : EncodingSession) : Prop
  | active (hstate : p.state = .active) (hcleanup : p.cleanup = ⟨handle⟩)
      (hopen : ∀ e ∈ p.log, e.ends = false) (hconsumed : consumptions p.log = 0)
  | finished (hstate : p.state = .finished) (hcleanup : p.cleanup = ⟨0⟩)
      (hconsumed : consumptions p.log = 1)
  /-- Failed, and the handle could not be released. -/
  | held (hstate : p.state = .failed) (hcleanup : p.cleanup = ⟨handle⟩)
      (hconsumed : consumptions p.log = 0)
  | released (hstate : p.state = .failed) (hcleanup : p.cleanup = ⟨0⟩)
      (hconsumed : consumptions p.log = 1)

/-- The invariant between two calls. -/
structure Sound (handle : ℤ) (p : EncodingSession) : Prop where
  standing : Standing handle p
  ordered : Ordered p.log
  finishes : p.log.countP EncoderEvent.finishes ≤ 1
  own : ∀ e ∈ p.log, e.handle = handle

/-- A session that has failed and is about to release its handle. -/
structure Failing (handle : ℤ) (p : EncodingSession) : Prop where
  state : p.state = .failed
  cleanup : p.cleanup = ⟨0⟩
  consumed : consumptions p.log = 0
  ordered : Ordered p.log
  finishes : p.log.countP EncoderEvent.finishes ≤ 1
  own : ∀ e ∈ p.log, e.handle = handle

theorem Failing.blocked {handle : ℤ} {p : EncodingSession} (h : Failing handle p) : p.Blocked :=
  ⟨by rw [h.state]; nofun, fun _ => h.cleanup⟩

/-- The record grows by a call that does not use the encoder. -/
theorem Ordered.append {log events : List EncoderEvent} (h : Ordered log)
    (hevents : ∀ e ∈ events, e.uses = false) : Ordered (log ++ events) :=
  List.pairwise_append.mpr ⟨h, List.pairwise_of_forall_mem_list fun _ _ b hb _ => hevents b hb,
    fun _ _ b hb _ => hevents b hb⟩

/-- The record of an encoder in use grows by one more call. -/
theorem Ordered.append_call {log : List EncoderEvent} (hopen : ∀ e ∈ log, e.ends = false)
    (op : NativeOp) (handle : ℤ) (failure : Option Throwable) :
    Ordered (log ++ callEvents op handle failure) := by
  refine List.pairwise_append.mpr ⟨?_, by simp [callEvents, EncoderEvent.uses], ?_⟩
  · refine List.pairwise_of_forall_mem_list ?_
    intro a ha b _ hends
    rw [hopen a ha] at hends
    cases hends
  · intro a ha b _ hends
    rw [hopen a ha] at hends
    cases hends

theorem recordCall_log (p : EncodingSession) (op : NativeOp) (handle : ℤ)
    (failure : Option Throwable) :
    (p.recordCall op handle failure).log = p.log ++ callEvents op handle failure := by
  simp [recordCall, callEvents, EncodingSession.record]

theorem callEvents_own {op : NativeOp} {handle : ℤ} {failure : Option Throwable}
    {log : List EncoderEvent} (h : ∀ e ∈ log, e.handle = handle) :
    ∀ e ∈ log ++ callEvents op handle failure, e.handle = handle := by
  intro e he
  rcases List.mem_append.mp he with he | he
  · exact h e he
  · simp only [callEvents, List.mem_cons, List.not_mem_nil, or_false] at he
    rcases he with rfl | rfl <;> rfl

/-- One more attempt to release the handle of a failed session. -/
theorem Failing.release {handle : ℤ} {p : EncodingSession} (h : Failing handle p)
    (hhandle : handle ≠ 0) (failure : Option Throwable) :
    Sound handle (match failure with
      | none => (p.recordCall .releaseEncoder handle none).swept
      | some t => (p.recordCall .releaseEncoder handle (some t)).restoreHandle handle) := by
  have hlog := recordCall_log p .releaseEncoder handle failure
  have hordered : Ordered (p.log ++ callEvents .releaseEncoder handle failure) :=
    h.ordered.append (by simp [callEvents, EncoderEvent.uses])
  have hfinishes : (p.log ++ callEvents .releaseEncoder handle failure).countP
      EncoderEvent.finishes ≤ 1 := by
    rw [List.countP_append]
    exact h.finishes
  have hown : ∀ e ∈ p.log ++ callEvents .releaseEncoder handle failure, e.handle = handle :=
    callEvents_own h.own
  have hconsumed := h.consumed
  rw [consumptions] at hconsumed
  cases failure with
  | none =>
    refine ⟨.released h.state h.cleanup ?_, ?_, ?_, ?_⟩
    · show consumptions (p.recordCall .releaseEncoder handle none).log = 1
      rw [hlog, consumptions, List.countP_append, hconsumed]
      rfl
    · rw [← hlog] at hordered; exact hordered
    · rw [← hlog] at hfinishes; exact hfinishes
    · rw [← hlog] at hown; exact hown
  | some t =>
    have hrestored : p.cleanup.restoreHandle handle = (true, ⟨handle⟩) := by
      rw [h.cleanup, Cleanup.restoreHandle_zero hhandle]
    refine ⟨.held h.state ?_ ?_, ?_, ?_, ?_⟩
    · show (p.cleanup.restoreHandle handle).2 = ⟨handle⟩
      rw [hrestored]
    · show consumptions (p.recordCall .releaseEncoder handle (some t)).log = 0
      rw [hlog, consumptions, List.countP_append, hconsumed]
      rfl
    · rw [← hlog] at hordered; exact hordered
    · rw [← hlog] at hfinishes; exact hfinishes
    · rw [← hlog] at hown; exact hown

/-- What is suppressed in the exception of a failed call. -/
def Native.suppressed (release : Native) (failure : Throwable) : List Throwable :=
  release.failure.toList.filter fun t => !t.sameObject failure

/-- The release after a failed call. -/
theorem Failing.releaseAfterFailure {handle : ℤ} {p : EncodingSession} (h : Failing handle p)
    (hhandle : handle ≠ 0) (failure : Throwable) (release sweep : Native) :
    Sound handle (p.releaseAfterFailure release.run sweep.run handle failure).2 ∧
      (p.releaseAfterFailure release.run sweep.run handle failure).1 =
        release.suppressed failure := by
  have hreleased := h.release hhandle release.failure
  unfold EncodingSession.releaseAfterFailure
  rw [if_neg hhandle, release.run_blocked _ _ h.blocked]
  cases hfailure : release.failure with
  | none =>
    rw [hfailure] at hreleased
    dsimp only
    rw [clean_of_zero sweep.run (p := p.recordCall .releaseEncoder handle none) h.cleanup]
    exact ⟨hreleased, by rw [Native.suppressed, hfailure]; rfl⟩
  | some t =>
    rw [hfailure] at hreleased
    refine ⟨hreleased, ?_⟩
    cases hsame : t.sameObject failure <;> simp [Native.suppressed, hfailure, hsame]

/-- The retry of a session that has failed. -/
theorem Failing.releaseClaimedNativeHandle {handle : ℤ} {p : EncodingSession}
    (h : Failing handle p) (hhandle : handle ≠ 0) (release sweep : Native) :
    Sound handle (p.releaseClaimedNativeHandle release.run sweep.run handle).2 ∧
      (p.releaseClaimedNativeHandle release.run sweep.run handle).2.log =
        p.log ++ callEvents .releaseEncoder handle release.failure := by
  have hreleased := h.release hhandle release.failure
  have hlog := recordCall_log p .releaseEncoder handle release.failure
  unfold EncodingSession.releaseClaimedNativeHandle
  rw [release.run_blocked _ _ h.blocked]
  cases hfailure : release.failure with
  | none =>
    rw [hfailure] at hreleased hlog
    dsimp only
    rw [clean_of_zero sweep.run (p := p.recordCall .releaseEncoder handle none) h.cleanup]
    exact ⟨hreleased, hlog⟩
  | some t =>
    rw [hfailure] at hreleased hlog
    exact ⟨hreleased, hlog⟩

/-! ## The steps -/

theorem Standing.eq_active {handle : ℤ} {p : EncodingSession} (h : Standing handle p)
    (hstate : p.state = .active) : p.cleanup = ⟨handle⟩ ∧ (∀ e ∈ p.log, e.ends = false) ∧
      consumptions p.log = 0 := by
  cases h with
  | active _ hcleanup hopen hconsumed => exact ⟨hcleanup, hopen, hconsumed⟩
  | finished hother => rw [hstate] at hother; cases hother
  | held hother => rw [hstate] at hother; cases hother
  | released hother => rw [hstate] at hother; cases hother

/-- An encoder in use has not been finished. -/
theorem countP_finishes_of_open {log : List EncoderEvent} (h : ∀ e ∈ log, e.ends = false) :
    log.countP EncoderEvent.finishes = 0 := by
  rw [List.countP_eq_zero]
  intro e he hfinishes
  have hends := h e he
  cases e with
  | entered op handle => cases op <;> simp_all [EncoderEvent.finishes, EncoderEvent.ends]
  | left op handle failure => simp [EncoderEvent.finishes] at hfinishes

theorem countP_finishes_callEvents (op : NativeOp) (handle : ℤ) (failure : Option Throwable) :
    (callEvents op handle failure).countP EncoderEvent.finishes ≤ 1 := by
  cases op <;> simp [callEvents, List.countP_cons, EncoderEvent.finishes]

/-- The encoder in use fails in a call. -/
theorem Sound.failing {handle : ℤ} {p q : EncodingSession} (h : Sound handle p)
    (hstate : p.state = .active) {op : NativeOp} {failure : Throwable}
    (hlog : q.log = p.log ++ callEvents op handle (some failure)) (hfailed : q.state = .failed)
    (hcleanup : q.cleanup = ⟨0⟩) : Failing handle q := by
  obtain ⟨-, hopen, hconsumed⟩ := h.standing.eq_active hstate
  have hfinishes := countP_finishes_of_open hopen
  rw [consumptions] at hconsumed
  refine ⟨hfailed, hcleanup, ?_, ?_, ?_, ?_⟩
  · rw [hlog, consumptions, List.countP_append, hconsumed]
    cases op <;> rfl
  · rw [hlog]
    exact .append_call hopen op handle _
  · rw [hlog, List.countP_append, hfinishes, Nat.zero_add]
    exact countP_finishes_callEvents _ _ _
  · rw [hlog]
    exact callEvents_own h.own

/-- The encoder in use takes a chunk. -/
theorem Sound.wrote {handle : ℤ} {p q : EncodingSession} (h : Sound handle p)
    (hstate : p.state = .active)
    (hlog : q.log = p.log ++ callEvents .writeEncoderInterleaved handle none)
    (hactive : q.state = .active) (hcleanup : q.cleanup = ⟨handle⟩) : Sound handle q := by
  obtain ⟨-, hopen, hconsumed⟩ := h.standing.eq_active hstate
  have hfinishes := countP_finishes_of_open hopen
  rw [consumptions] at hconsumed
  refine ⟨.active hactive hcleanup ?_ ?_, ?_, ?_, ?_⟩
  · intro e he
    rw [hlog] at he
    rcases List.mem_append.mp he with he | he
    · exact hopen e he
    · simp only [callEvents, List.mem_cons, List.not_mem_nil, or_false] at he
      rcases he with rfl | rfl <;> rfl
  · rw [hlog, consumptions, List.countP_append, hconsumed]
    rfl
  · rw [hlog]
    exact .append_call hopen _ handle _
  · rw [hlog, List.countP_append, hfinishes, Nat.zero_add]
    exact countP_finishes_callEvents _ _ _
  · rw [hlog]
    exact callEvents_own h.own

/-- The encoder in use is finished. -/
theorem Sound.finished {handle : ℤ} {p q : EncodingSession} (h : Sound handle p)
    (hstate : p.state = .active)
    (hlog : q.log = p.log ++ callEvents .finishEncoder handle none)
    (hfinished : q.state = .finished) (hcleanup : q.cleanup = ⟨0⟩) : Sound handle q := by
  obtain ⟨-, hopen, hconsumed⟩ := h.standing.eq_active hstate
  have hfinishes := countP_finishes_of_open hopen
  rw [consumptions] at hconsumed
  refine ⟨.finished hfinished hcleanup ?_, ?_, ?_, ?_⟩
  · rw [hlog, consumptions, List.countP_append, hconsumed]
    rfl
  · rw [hlog]
    exact .append_call hopen _ handle _
  · rw [hlog, List.countP_append, hfinishes, Nat.zero_add]
    exact countP_finishes_callEvents _ _ _
  · rw [hlog]
    exact callEvents_own h.own

/-- A write is accepted: the session takes PCM, and the chunk is valid and not empty. -/
def EncodingSession.Accepts (p : EncodingSession) (samples : List ℤ) (frames : ℤ) : Prop :=
  p.state = .active ∧ p.cleanup.currentHandle ≠ 0 ∧
    validateInterleavedPcmChunk samples frames p.format = none ∧ frames ≠ 0

/-- A write that is not accepted leaves the session alone. -/
theorem writeInterleaved_of_not_accepts {p : EncodingSession} {samples : List ℤ} {frames : ℤ}
    (h : ¬ p.Accepts samples frames) (native release sweep : NativeCall) :
    (p.writeInterleaved native release sweep samples frames).2 = p := by
  unfold EncodingSession.writeInterleaved
  by_cases hactive : p.state ≠ .active ∨ p.cleanup.currentHandle = 0
  · rw [if_pos hactive]
  rw [if_neg hactive]
  rw [not_or, not_not] at hactive
  cases hchunk : validateInterleavedPcmChunk samples frames p.format with
  | some message => rfl
  | none =>
    by_cases hzero : frames = 0
    · dsimp only
      rw [if_pos hzero]
    · exact absurd ⟨hactive.1, hactive.2, hchunk, hzero⟩ h

/-- What an accepted write does. -/
theorem Sound.writeInterleaved {handle : ℤ} {p : EncodingSession} (h : Sound handle p)
    (hhandle : handle ≠ 0) {samples : List ℤ} {frames : ℤ} (haccepts : p.Accepts samples frames)
    (native release sweep : Native) :
    Sound handle (p.writeInterleaved native.run release.run sweep.run samples frames).2 ∧
      (p.writeInterleaved native.run release.run sweep.run samples frames).1 =
        match native.failure with
        | none => .returned
        | some failure => .threw failure (release.suppressed failure) := by
  obtain ⟨hactive, hcurrent, hchunk, hzero⟩ := haccepts
  obtain ⟨hcleanup, -, -⟩ := h.standing.eq_active hactive
  have hhandle' : p.cleanup.currentHandle = handle := by rw [hcleanup]; rfl
  have hlog := recordCall_log (p.withState .writing) .writeEncoderInterleaved handle
    native.failure
  have hblocked : (p.withState .writing).Blocked := ⟨nofun, nofun⟩
  unfold EncodingSession.writeInterleaved
  rw [if_neg (by simp [hactive, hcurrent]), hchunk]
  dsimp only
  rw [if_neg hzero, native.run_blocked _ _ hblocked, hhandle']
  cases hfailure : native.failure with
  | none =>
    rw [hfailure] at hlog
    exact ⟨h.wrote hactive hlog rfl hcleanup, rfl⟩
  | some failure =>
    rw [hfailure] at hlog
    have hfailing : Failing handle ((((p.withState .writing).recordCall .writeEncoderInterleaved
        handle (some failure)).withCleanup ⟨0⟩).withState .failed) :=
      h.failing hactive hlog rfl rfl
    have hclaimed : ((p.withState .writing).recordCall .writeEncoderInterleaved handle
        (some failure)).cleanup.claimHandle.1 = handle := hhandle'
    obtain ⟨hsound, hsuppressed⟩ := hfailing.releaseAfterFailure hhandle failure release sweep
    dsimp only [EncodingSession.failAndRelease]
    rw [hclaimed, Cleanup.claimHandle_snd]
    exact ⟨hsound, by rw [hsuppressed]⟩

/-- What `finish` does to a session in use. -/
theorem Sound.finish_active {handle : ℤ} {p : EncodingSession} (h : Sound handle p)
    (hhandle : handle ≠ 0) (hactive : p.state = .active) (native release sweep : Native) :
    Sound handle (p.finish native.run release.run sweep.run).2 ∧
      (p.finish native.run release.run sweep.run).1 =
        match native.failure with
        | none => .returned
        | some failure => .threw failure (release.suppressed failure) := by
  obtain ⟨hcleanup, -, -⟩ := h.standing.eq_active hactive
  have hclaimed : p.cleanup.claimHandle.1 = handle := by rw [hcleanup]; rfl
  have hlog := recordCall_log ((p.withCleanup ⟨0⟩).withState .finishing) .finishEncoder handle
    native.failure
  have hblocked : ((p.withCleanup ⟨0⟩).withState .finishing).Blocked := ⟨nofun, fun _ => rfl⟩
  unfold EncodingSession.finish
  rw [hactive]
  dsimp only
  rw [hclaimed, if_neg hhandle, Cleanup.claimHandle_snd, native.run_blocked _ _ hblocked]
  cases hfailure : native.failure with
  | none =>
    rw [hfailure] at hlog
    dsimp only
    rw [clean_of_zero sweep.run (p := ((((p.withCleanup ⟨0⟩).withState .finishing).recordCall
      .finishEncoder handle none).withState .finished)) rfl]
    exact ⟨h.finished hactive hlog rfl rfl, rfl⟩
  | some failure =>
    rw [hfailure] at hlog
    have hfailing : Failing handle ((((p.withCleanup ⟨0⟩).withState .finishing).recordCall
        .finishEncoder handle (some failure)).withState .failed) :=
      h.failing hactive hlog rfl rfl
    obtain ⟨hsound, hsuppressed⟩ := hfailing.releaseAfterFailure hhandle failure release sweep
    exact ⟨hsound, congrArg (EncoderResult.threw failure) hsuppressed⟩

/-- What `finish` does to a session that has failed: it retries the release, if there is still
something to release. -/
theorem Sound.finish_failed {handle : ℤ} {p : EncodingSession} (h : Sound handle p)
    (hhandle : handle ≠ 0) (hfailed : p.state = .failed) (native release sweep : Native) :
    Sound handle (p.finish native.run release.run sweep.run).2 ∧
      (p.cleanup = ⟨0⟩ ∧ p.finish native.run release.run sweep.run = (.returned, p) ∨
        p.cleanup = ⟨handle⟩ ∧ (p.finish native.run release.run sweep.run).2.log =
          p.log ++ callEvents .releaseEncoder handle release.failure) := by
  have hreleased : ∀ q : EncodingSession, q.cleanup = ⟨0⟩ → q.withCleanup ⟨0⟩ = q := by
    rintro ⟨format, state, cleanup, cleaned, log⟩ hzero
    obtain rfl : cleanup = ⟨0⟩ := hzero
    rfl
  unfold EncodingSession.finish
  rw [hfailed]
  dsimp only
  rw [Cleanup.claimHandle_snd]
  cases h.standing with
  | active hother => rw [hfailed] at hother; cases hother
  | finished hother => rw [hfailed] at hother; cases hother
  | held _ hcleanup hconsumed =>
    have hclaimed : p.cleanup.claimHandle.1 = handle := by rw [hcleanup]; rfl
    rw [hclaimed, if_neg hhandle]
    have hfailing : Failing handle (p.withCleanup ⟨0⟩) :=
      ⟨hfailed, rfl, hconsumed, h.ordered, h.finishes, h.own⟩
    obtain ⟨hsound, hlog⟩ := hfailing.releaseClaimedNativeHandle hhandle release sweep
    exact ⟨hsound, .inr ⟨hcleanup, hlog⟩⟩
  | released _ hcleanup hconsumed =>
    have hclaimed : p.cleanup.claimHandle.1 = 0 := by rw [hcleanup]; rfl
    rw [hclaimed, if_pos rfl, hreleased p hcleanup]
    exact ⟨h, .inl ⟨hcleanup, rfl⟩⟩

/-- Every call keeps the session sound. -/
theorem Sound.call {handle : ℤ} {p : EncodingSession} (h : Sound handle p) (hhandle : handle ≠ 0)
    (call : EncoderCall) : Sound handle (call.run p).2 := by
  cases call with
  | writeInterleaved samples frames native release sweep =>
    show Sound handle (p.writeInterleaved native.run release.run sweep.run samples frames).2
    by_cases haccepts : p.Accepts samples frames
    · exact (h.writeInterleaved hhandle haccepts native release sweep).1
    · rw [writeInterleaved_of_not_accepts haccepts]
      exact h
  | finish native release sweep =>
    show Sound handle (p.finish native.run release.run sweep.run).2
    cases h.standing with
    | active hstate => exact (h.finish_active hhandle hstate native release sweep).1
    | finished hstate =>
      unfold EncodingSession.finish
      rw [hstate]
      exact h
    | held hstate => exact (h.finish_failed hhandle hstate native release sweep).1
    | released hstate => exact (h.finish_failed hhandle hstate native release sweep).1

theorem Sound.opened (format : AudioFormat) (handle : ℤ) :
    Sound handle (EncodingSession.opened format handle) :=
  ⟨.active rfl rfl (by simp [EncodingSession.opened]) rfl, .nil, Nat.zero_le _,
    by simp [EncodingSession.opened]⟩

theorem Sound.runCalls {handle : ℤ} {p : EncodingSession} (h : Sound handle p)
    (hhandle : handle ≠ 0) (calls : List EncoderCall) : Sound handle (runCalls calls p) := by
  induction calls generalizing p with
  | nil => exact h
  | cons call calls ih => exact ih (h.call hhandle call)

/-! ## Safety -/

/-- What holds of an encoding session between any two calls. -/
structure EncoderSafe (handle : ℤ) (p : EncodingSession) : Prop where
  /-- The encoder is finished at most once. -/
  finishOnce : p.log.countP EncoderEvent.finishes ≤ 1
  /-- After a failure, or once it was entered, neither a finish nor a write. -/
  ordered : Ordered p.log
  own : ∀ e ∈ p.log, e.handle = handle
  /-- The handle is consumed at most once, and until then the session keeps it. -/
  consumed : (p.cleanup.handle = handle ∧ consumptions p.log = 0) ∨
    (p.cleanup.handle = 0 ∧ consumptions p.log = 1)
  /-- After a successful finish, `finish` and `close` do nothing. -/
  afterFinish : p.state = .finished → ∀ native release sweep,
    (EncoderCall.finish native release sweep).run p = (.returned, p)
  /-- After a failure, they retry the release until it has succeeded. -/
  afterFailure : p.state = .failed → ∀ native release sweep,
    (p.cleanup.handle = 0 → (EncoderCall.finish native release sweep).run p = (.returned, p)) ∧
    (p.cleanup.handle ≠ 0 → ((EncoderCall.finish native release sweep).run p).2.log =
      p.log ++ callEvents .releaseEncoder handle release.failure)
  /-- A rejected write leaves the session alone. -/
  rejected : ∀ samples frames, ¬ p.Accepts samples frames → ∀ native release sweep,
    ((EncoderCall.writeInterleaved samples frames native release sweep).run p).2 = p
  /-- The caller sees the failure of its own native call. -/
  writeFailure : ∀ samples frames, p.Accepts samples frames → ∀ native release sweep failure,
    native.failure = some failure →
      ((EncoderCall.writeInterleaved samples frames native release sweep).run p).1 =
        .threw failure (release.suppressed failure)
  finishFailure : p.state = .active → ∀ native release sweep failure,
    native.failure = some failure → ((EncoderCall.finish native release sweep).run p).1 =
      .threw failure (release.suppressed failure)

theorem Sound.encoderSafe {handle : ℤ} {p : EncodingSession} (h : Sound handle p)
    (hhandle : handle ≠ 0) : EncoderSafe handle p where
  finishOnce := h.finishes
  ordered := h.ordered
  own := h.own
  consumed := by
    cases h.standing with
    | active _ hcleanup _ hconsumed => exact .inl ⟨congrArg _ hcleanup, hconsumed⟩
    | finished _ hcleanup hconsumed => exact .inr ⟨congrArg _ hcleanup, hconsumed⟩
    | held _ hcleanup hconsumed => exact .inl ⟨congrArg _ hcleanup, hconsumed⟩
    | released _ hcleanup hconsumed => exact .inr ⟨congrArg _ hcleanup, hconsumed⟩
  afterFinish hstate native release sweep := by
    show p.finish native.run release.run sweep.run = _
    unfold EncodingSession.finish
    rw [hstate]
  afterFailure hstate native release sweep := by
    obtain ⟨-, ⟨hcleanup, heq⟩ | ⟨hcleanup, hlog⟩⟩ :=
      h.finish_failed hhandle hstate native release sweep
    · exact ⟨fun _ => heq, fun hne => absurd (congrArg Cleanup.handle hcleanup) hne⟩
    · refine ⟨fun hzero => ?_, fun _ => hlog⟩
      rw [hcleanup] at hzero
      exact absurd hzero hhandle
  rejected _ _ hrejects _ _ _ := writeInterleaved_of_not_accepts hrejects _ _ _
  writeFailure _ _ haccepts native release sweep failure hfailure := by
    have hresult := (h.writeInterleaved hhandle haccepts native release sweep).2
    rw [hfailure] at hresult
    exact hresult
  finishFailure hstate native release sweep failure hfailure := by
    have hresult := (h.finish_active hhandle hstate native release sweep).2
    rw [hfailure] at hresult
    exact hresult

/-- **Encoding sessions.** Whatever calls are made, from outside or from inside a native call, and
whatever fails, the encoder is finished at most once and never after a failure, and its handle is
consumed exactly once or kept. -/
theorem encodingSession_safe (format : AudioFormat) {handle : ℤ} (hhandle : handle ≠ 0)
    (calls : List EncoderCall) :
    EncoderSafe handle (runCalls calls (.opened format handle)) :=
  ((Sound.opened format handle).runCalls hhandle calls).encoderSafe hhandle

/-- A write fails, its release fails too, and the callback has tried to close the session. -/
def failedWrite : List EncoderCall :=
  [.writeInterleaved [0] 1
    (.runs (.cons (.finish (.runs .nil none) (.runs .nil none) (.runs .nil none)) .nil)
      (some (.java 1)))
    (.runs .nil (some (.java 2))) (.runs .nil none)]

theorem encodingSession_safe_failedWrite :
    EncoderSafe 7 (runCalls failedWrite (.opened ⟨1, 16⟩ 7)) :=
  encodingSession_safe ⟨1, 16⟩ (by decide) failedWrite

end JFlac.Sessions
