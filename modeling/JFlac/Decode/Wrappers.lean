import JFlac.Decode.Session

/-!
# The JVM wrappers

The Kotlin classes through which callers reach the native decoder, as far as they decide what a
caller sees: `NativeFlacPullDecodingSession`, which stops using a session after the first failure,
and the range and frame-count checks of the wrapper models.
-/

namespace JFlac.Decode

variable {D : Type}

/-- What a Kotlin call gives its caller: `running` while a native loop has not returned. -/
inductive Result (α : Type) where
  | returned (value : α)
  | threw (exception : Throwable)
  | running
  deriving DecidableEq, Repr

/-- The exception a call ended with. -/
def Result.exception? {α : Type} : Result α → Option Throwable
  | .threw exception => some exception
  | _ => none

/-- Whether a call has ended. -/
def Result.finished {α : Type} : Result α → Bool
  | .running => false
  | _ => true

/-! ## Pull sessions -/

/-- `NativeFlacPullDecodingSession`: `channels` is that of the STREAMINFO read at open. -/
structure PullSession (D : Type) where
  active : Bool
  channels : ℕ
  native : Session D

/-- The exception text of a closed or failed pull session. -/
def inactiveMessage : String := "The FLAC pull decoding session is no longer active."

/-- `readInterleaved`: the frame count with the contents of the array. -/
def PullSession.readInterleaved (F : LibFlac D) (J : Jvm) (fuel : ℕ) (samples : List Sample)
    (maxFrames : ℤ) (p : PullSession D) : Result (ℤ × List Sample) × PullSession D :=
  if !p.active then (.threw (.illegalStateException inactiveMessage), p)
  else if maxFrames < 0 then
    (.threw (.illegalArgumentException "Max frames must be non-negative."), p)
  else if intMax < maxFrames.toNat * p.channels ∨ samples.length < maxFrames.toNat * p.channels then
    (.threw (.illegalArgumentException pullBufferMessage), p)
  else if maxFrames = 0 then (.returned (0, samples), p)
  else
    let read := readPullDecoderInterleaved F J fuel samples maxFrames p.native
    match read.value, read.session.machine.pending with
    | none, _ => (.running, { p with native := read.session })
    | some _, some exception => (.threw exception, { p with active := false, native := read.session })
    | some frames, none => (.returned (frames, read.samples), { p with native := read.session })

/-- `openPull`: the wrapper around a session that was opened. -/
def PullSession.ofNative (session : Session D) : PullSession D :=
  { active := true, channels := session.machine.context.streamInfo.channels, native := session }

/-- One read of a run: its events and what the caller got. -/
structure ReadRecord where
  events : List Event
  result : Result (ℤ × List Sample)

/-- A run of reads, each given its array and its `maxFrames`; it stops at a read that has not
returned. -/
def PullSession.reads (F : LibFlac D) (J : Jvm) (fuel : ℕ) :
    PullSession D → List (List Sample × ℤ) → List ReadRecord
  | _, [] => []
  | p, (samples, maxFrames) :: requests =>
    let read := p.readInterleaved F J fuel samples maxFrames
    let events := read.2.native.machine.history.drop p.native.machine.history.length
    ⟨events, read.1⟩ :: if read.1.finished then read.2.reads F J fuel requests else []

/-- An inactive session only raises. -/
theorem PullSession.reads_inactive (F : LibFlac D) (J : Jvm) (fuel : ℕ)
    (requests : List (List Sample × ℤ)) {p : PullSession D} (h : p.active = false) :
    ∀ record ∈ p.reads F J fuel requests,
      record = ⟨[], .threw (.illegalStateException inactiveMessage)⟩ := by
  induction requests with
  | nil => simp [PullSession.reads]
  | cons request requests ih =>
    obtain ⟨samples, maxFrames⟩ := request
    have hread : p.readInterleaved F J fuel samples maxFrames =
        (.threw (.illegalStateException inactiveMessage), p) := if_pos (by simp [h])
    intro record hrecord
    simp only [PullSession.reads, hread, List.drop_length, Result.finished, if_true,
      List.mem_cons] at hrecord
    exact hrecord.elim id (ih record)

end JFlac.Decode
