import JFlac.Encode.Transport
import JFlac.Streams.Embedding

/-!
# Encoding into a channel behind what it holds

The channel callbacks of the encoder on a channel of the caller, from the position that was captured
at open. They are compared with the same callbacks on the channel of the bytes from there on. The
position may lie behind the end of the channel: the bytes between are then never written by the
callbacks themselves.
-/

namespace JFlac.Encode

open Streams (ByteChannel ChannelHabits ChannelOp ChannelAnswer Embeds WrittenAt)

/-! ## Callbacks on a channel -/

/-- The call on the channel. -/
def channelOp : ChannelCall → ChannelOp
  | .newDirectByteBuffer _ => .allocate
  | .read capacity => .read capacity
  | .write bytes => .write bytes
  | .position => .position
  | .setPosition target => .setPosition target

/-- The channel after some calls. -/
def channelAfter (habits : ChannelHabits) (c : ByteChannel) (calls : List ChannelCall) :
    ByteChannel :=
  c.after habits (calls.map channelOp)

/-- The caller's channel as an object. -/
def onChannel (habits : ChannelHabits) (c : ByteChannel) : ChannelObject := fun history call =>
  ((channelAfter habits c history).perform habits (channelOp call)).1.map
    fun answer => ⟨answer.value, answer.bytes⟩

/-- The callbacks registered with a stream encoder. -/
inductive ChannelCallback where
  | read (bytes : ℕ)
  | write (buffer : List UInt8)
  | seek (absoluteByteOffset : ℕ)
  | tell
  deriving DecidableEq, Repr

/-- What each callback returns to libFLAC; the write loop gets a round for every byte. -/
abbrev ChannelReply : ChannelCallback → Type
  | .read _ => ReadReply
  | .write _ => Option Bool
  | .seek _ => Bool
  | .tell => Option ℕ

/-- Dispatches a callback. -/
def handleChannel (C : ChannelObject) (context : EncodeContext) : (callback : ChannelCallback) →
    State → ChannelReply callback × State
  | .read bytes, s => encodeChannelReadCallback C context bytes s
  | .write buffer, s => encodeChannelWriteCallback C context (buffer.length + 1) buffer s
  | .seek offset, s => encodeChannelSeekCallback C context offset s
  | .tell, s => encodeChannelTellCallback C context s

/-- The callbacks on a stream of which no byte has an index above `longMax - b`: a seek beyond it is
an error. -/
def handleEmbedded (C : ChannelObject) (context : EncodeContext) (b : ℕ) :
    (callback : ChannelCallback) → State → ChannelReply callback × State
  | .seek offset, s =>
    if (longMax - b).toNat < offset then (false, s)
    else handleChannel C context (.seek offset) s
  | callback, s => handleChannel C context callback s

/-- A sequence of callbacks, with their replies. -/
def runChannel (handle : (callback : ChannelCallback) → State → ChannelReply callback × State) :
    List ChannelCallback → State →
      List ((callback : ChannelCallback) × ChannelReply callback) × State
  | [], s => ([], s)
  | callback :: callbacks, s =>
    let handled := handle callback s
    let rest := runChannel handle callbacks handled.2
    (⟨callback, handled.1⟩ :: rest.1, rest.2)

/-! ## The embedding -/

/-- A call with its position moved by the base offset. -/
def shiftCall (b : ℕ) : ChannelCall → ChannelCall
  | .setPosition target => .setPosition (b + target)
  | call => call

/-- The value of a call, moved by the base offset if it is a position. -/
def shiftValue (b : ℕ) (call : ChannelCall) (value : ChannelValue) : ChannelValue :=
  match call with
  | .position => { value with value := b + value.value }
  | _ => value

theorem channelOp_shiftCall (b : ℕ) (call : ChannelCall) :
    channelOp (shiftCall b call) = (channelOp call).shift b := by
  cases call <;> rfl

/-- Positions that a callback may set: not before the stream, and none that a `long` cannot hold. -/
def InRange (b : ℕ) : ChannelCall → Prop
  | .setPosition target => 0 ≤ target ∧ b + target ≤ longMax
  | _ => True

/-- An encode on a channel and the encode on its bytes from the base offset on. -/
structure Embedded (habits : ChannelHabits) (start : ByteChannel) (s s' : State) : Prop where
  pending : s'.pending = s.pending
  embeds : Embeds start.position (channelAfter habits start s.calls)
    (channelAfter (habits.embedded start.position) start.embedded s'.calls)
  before : ByteChannel.KeepsBefore start.position start (channelAfter habits start s.calls)
  fits : (channelAfter habits start s.calls).FitsLong
  inRange : ∀ target : ℤ, .setPosition target ∈ s.calls →
    start.position ≤ target ∧ target ≤ longMax

section Embedded

variable {habits : ChannelHabits} {start : ByteChannel} {s s' : State}

theorem channelAfter_snoc (habits : ChannelHabits) (c : ByteChannel) (calls : List ChannelCall)
    (call : ChannelCall) :
    channelAfter habits c (calls ++ [call]) =
      ((channelAfter habits c calls).perform habits (channelOp call)).2 := by
  rw [channelAfter, List.map_append, List.map_singleton, ByteChannel.after_snoc]
  rfl

/-- The same exception does not part the two encodes. -/
theorem Embedded.raise (h : Embedded habits start s s') (message : String) :
    Embedded habits start (s.throwEncode message) (s'.throwEncode message) :=
  ⟨rfl, h.embeds, h.before, h.fits, h.inRange⟩

theorem asks_channelOp {b : ℕ} {c : ByteChannel} {call : ChannelCall} (hcall : InRange b call) :
    Embeds.Asks b c (channelOp call) := by
  cases call with
  | setPosition target => exact hcall.1
  | _ => trivial

/-- The same call keeps the two channels together, whatever exception is pending afterwards. -/
theorem Embedded.call (h : Embedded habits start s s') (hlimit : (habits.limit : ℤ) ≤ longMax)
    {call : ChannelCall} (hcall : InRange start.position call) (pending : Option Throwable) :
    Embedded habits start ⟨pending, s.calls ++ [shiftCall start.position call]⟩
      ⟨pending, s'.calls ++ [call]⟩ := by
  have hbehind : ByteChannel.StaysBehind start.position
      (channelOp (shiftCall start.position call)) := by
    cases call with
    | setPosition target =>
      have hnonneg := hcall.1
      show (start.position : ℤ) ≤ start.position + target
      omega
    | _ => trivial
  have hfits : ∀ target, channelOp (shiftCall start.position call) = .setPosition target →
      target ≤ longMax := by
    cases call with
    | setPosition target =>
      rintro _ ⟨⟩
      exact hcall.2
    | _ => exact nofun
  constructor
  case pending => rfl
  case embeds =>
    rw [channelAfter_snoc, channelAfter_snoc, channelOp_shiftCall]
    exact (h.embeds.perform habits (asks_channelOp hcall)).2
  case before =>
    rw [channelAfter_snoc]
    exact h.before.perform hbehind
  case fits =>
    rw [channelAfter_snoc]
    exact h.fits.perform hlimit hfits
  case inRange =>
    intro target hmem
    rcases List.mem_append.mp hmem with hmem | hmem
    · exact h.inRange target hmem
    · have htarget := List.mem_singleton.mp hmem
      cases call with
      | setPosition target' =>
        obtain rfl := ChannelCall.setPosition.inj htarget
        have hnonneg := hcall.1
        exact ⟨by omega, hcall.2⟩
      | _ => cases htarget

/-- The two encodes make the same call: both get a value, or both end with the same exception. -/
theorem Embedded.callChannel (h : Embedded habits start s s')
    (hlimit : (habits.limit : ℤ) ≤ longMax) (moved call : ChannelCall)
    (hmoved : moved = shiftCall start.position call) (hcall : InRange start.position call) :
    (∃ value t t', s.callChannel (onChannel habits start) moved =
        (some (shiftValue start.position call value), t) ∧
      s'.callChannel (onChannel (habits.embedded start.position) start.embedded) call =
        (some value, t') ∧ Embedded habits start t t') ∨
    ∃ t t', s.callChannel (onChannel habits start) moved = (none, t) ∧
      s'.callChannel (onChannel (habits.embedded start.position) start.embedded) call =
        (none, t') ∧ Embedded habits start t t' := by
  have hanswer := (h.embeds.perform habits (asks_channelOp hcall)).1
  rw [← channelOp_shiftCall, ← hmoved] at hanswer
  have hnext := h.call hlimit hcall
  rw [← hmoved] at hnext
  unfold State.callChannel State.exceptionCheck
  rw [h.pending]
  cases hpending : s.pending with
  | some exception => exact .inr ⟨s, s', rfl, rfl, h⟩
  | none =>
    rw [if_neg (by simp), if_neg (by simp)]
    dsimp only [onChannel]
    rw [hanswer]
    cases ((channelAfter (habits.embedded start.position) start.embedded s'.calls).perform
      (habits.embedded start.position) (channelOp call)).1 with
    | ok answer =>
      refine .inl ⟨⟨answer.value, answer.bytes⟩, ⟨none, s.calls ++ [moved]⟩,
        ⟨none, s'.calls ++ [call]⟩, ?_, rfl, hnext none⟩
      cases call <;> rfl
    | error exception => exact .inr ⟨_, _, rfl, rfl, hnext (some exception)⟩

/-- Both encodes go on with the same exception and the same bytes. -/
structure SameStep {α : Type} (habits : ChannelHabits) (start : ByteChannel)
    (full sub : α × State) : Prop where
  reply : full.1 = sub.1
  embedded : Embedded habits start full.2 sub.2

variable {context : EncodeContext}

/-- The context of the embedded stream. -/
def EncodeContext.rebase (context : EncodeContext) : EncodeContext :=
  { context with channelBaseOffset := 0 }

theorem Embedded.exceptionCheck (h : Embedded habits start s s') :
    s'.exceptionCheck = s.exceptionCheck := by
  rw [State.exceptionCheck, h.pending, State.exceptionCheck]

theorem Embedded.read (h : Embedded habits start s s') (hlimit : (habits.limit : ℤ) ≤ longMax)
    (bytes : ℕ) :
    SameStep habits start (encodeChannelReadCallback (onChannel habits start) context bytes s)
      (encodeChannelReadCallback (onChannel (habits.embedded start.position) start.embedded)
        context.rebase bytes s') := by
  have houtput : context.rebase.outputChannel = context.outputChannel := rfl
  unfold encodeChannelReadCallback
  rw [houtput, h.exceptionCheck]
  split
  · exact ⟨rfl, h⟩
  split
  · exact ⟨rfl, h⟩
  split
  · exact ⟨rfl, h⟩
  split
  · exact ⟨rfl, h.raise _⟩
  obtain ⟨_, t, t', hfull, hsub, hbuffer⟩ | ⟨t, t', hfull, hsub, hfailed⟩ :=
    h.callChannel hlimit (.newDirectByteBuffer bytes) (.newDirectByteBuffer bytes) rfl trivial
  swap
  · rw [hfull, hsub]
    exact ⟨rfl, hfailed⟩
  rw [hfull, hsub]
  dsimp only
  obtain ⟨read, u, u', hfull, hsub, hread⟩ | ⟨u, u', hfull, hsub, hfailed⟩ :=
    hbuffer.callChannel hlimit (.read bytes) (.read bytes) rfl trivial
  swap
  · rw [hfull, hsub]
    exact ⟨rfl, hfailed⟩
  rw [hfull, hsub]
  dsimp only [shiftValue]
  split
  · exact ⟨rfl, hread⟩
  · exact ⟨rfl, hread⟩

theorem Embedded.writeLoop (h : Embedded habits start s s') (hlimit : (habits.limit : ℤ) ≤ longMax)
    (buffer : List UInt8) (rounds writtenTotal : ℕ) :
    SameStep habits start (writeLoop (onChannel habits start) buffer rounds writtenTotal s)
      (writeLoop (onChannel (habits.embedded start.position) start.embedded) buffer rounds
        writtenTotal s') := by
  induction rounds generalizing s s' writtenTotal with
  | zero => exact ⟨rfl, h⟩
  | succ rounds ih =>
    unfold Encode.writeLoop
    split
    case isFalse => exact ⟨rfl, h⟩
    obtain ⟨written, t, t', hfull, hsub, hwritten⟩ | ⟨t, t', hfull, hsub, hfailed⟩ :=
      h.callChannel hlimit (.write (buffer.drop writtenTotal)) (.write (buffer.drop writtenTotal))
        rfl trivial
    swap
    · rw [hfull, hsub]
      exact ⟨rfl, hfailed⟩
    rw [hfull, hsub]
    dsimp only [shiftValue]
    split
    · exact ⟨rfl, hwritten.raise _⟩
    · exact ih hwritten _

theorem Embedded.write (h : Embedded habits start s s') (hlimit : (habits.limit : ℤ) ≤ longMax)
    (rounds : ℕ) (buffer : List UInt8) :
    SameStep habits start
      (encodeChannelWriteCallback (onChannel habits start) context rounds buffer s)
      (encodeChannelWriteCallback (onChannel (habits.embedded start.position) start.embedded)
        context.rebase rounds buffer s') := by
  have houtput : context.rebase.outputChannel = context.outputChannel := rfl
  unfold encodeChannelWriteCallback
  rw [houtput, h.exceptionCheck]
  split
  · exact ⟨rfl, h⟩
  split
  · exact ⟨rfl, h⟩
  split
  · exact ⟨rfl, h.raise _⟩
  obtain ⟨_, t, t', hfull, hsub, hbuffer⟩ | ⟨t, t', hfull, hsub, hfailed⟩ :=
    h.callChannel hlimit (.newDirectByteBuffer buffer.length) (.newDirectByteBuffer buffer.length)
      rfl trivial
  · rw [hfull, hsub]
    exact hbuffer.writeLoop hlimit buffer rounds 0
  · rw [hfull, hsub]
    exact ⟨rfl, hfailed⟩

/-- An offset is in range exactly when its sum with the base offset fits a `long`. -/
theorem Embedded.offset (h : Embedded habits start s s') (offset : ℕ) :
    (longMax - (start.position : ℤ)).toNat < offset ↔
      longMax < (start.position : ℤ) + offset := by
  have hfits := h.fits.position
  have hbefore := h.before.position
  unfold longMax at hfits ⊢
  omega

theorem Embedded.seek (h : Embedded habits start s s') (hlimit : (habits.limit : ℤ) ≤ longMax)
    (hbase : context.channelBaseOffset = start.position) (offset : ℕ) :
    SameStep habits start (encodeChannelSeekCallback (onChannel habits start) context offset s)
      (handleEmbedded (onChannel (habits.embedded start.position) start.embedded) context.rebase
        start.position (.seek offset) s') := by
  have hoffset := h.offset offset
  have houtput : context.rebase.outputChannel = context.outputChannel := rfl
  have hzero : context.rebase.channelBaseOffset = 0 := rfl
  rw [handleEmbedded, handleChannel]
  unfold encodeChannelSeekCallback
  dsimp only
  rw [houtput, hzero, hbase]
  by_cases hlarge : longMax < (start.position : ℤ) + offset
  · rw [decide_eq_true (hoffset.mpr hlarge), Bool.or_true, if_pos rfl, if_pos (hoffset.mpr hlarge)]
    exact ⟨rfl, h⟩
  have hsub : ¬ (longMax - (0 : ℤ)).toNat < offset := by
    unfold longMax at hlarge ⊢
    omega
  have hsmall : ¬ (longMax - (start.position : ℤ)).toNat < offset := mt hoffset.mp hlarge
  rw [if_neg hsmall]
  cases houtput : context.outputChannel with
  | false =>
    rw [if_pos (by simp), if_pos (by simp)]
    exact ⟨rfl, h⟩
  | true =>
    rw [if_neg (by simpa using hsmall), if_neg (by simpa using hsub), Int.zero_add]
    obtain ⟨_, t, t', hfull, hsub, hmoved⟩ | ⟨t, t', hfull, hsub, hfailed⟩ :=
      h.callChannel hlimit (.setPosition (start.position + offset)) (.setPosition offset) rfl
        ⟨Int.natCast_nonneg _, by omega⟩
    · rw [hfull, hsub]
      exact ⟨rfl, hmoved⟩
    · rw [hfull, hsub]
      exact ⟨rfl, hfailed⟩

theorem Embedded.tell (h : Embedded habits start s s') (hlimit : (habits.limit : ℤ) ≤ longMax)
    (hbase : context.channelBaseOffset = start.position) :
    SameStep habits start (encodeChannelTellCallback (onChannel habits start) context s)
      (encodeChannelTellCallback (onChannel (habits.embedded start.position) start.embedded)
        context.rebase s') := by
  have houtput : context.rebase.outputChannel = context.outputChannel := rfl
  have hzero : context.rebase.channelBaseOffset = 0 := rfl
  unfold encodeChannelTellCallback
  rw [houtput, hzero, hbase]
  split
  · exact ⟨rfl, h⟩
  obtain ⟨value, t, t', hfull, hsub, hasked⟩ | ⟨t, t', hfull, hsub, hfailed⟩ :=
    h.callChannel hlimit .position .position rfl trivial
  swap
  · rw [hfull, hsub]
    exact ⟨rfl, hfailed⟩
  rw [hfull, hsub]
  dsimp only [shiftValue]
  by_cases hneg : value.value < 0
  · rw [if_pos (by omega), if_pos hneg]
    exact ⟨rfl, hasked⟩
  · have hcancel : (start.position : ℤ) + value.value - start.position = value.value := by omega
    rw [if_neg (by omega), if_neg hneg, hcancel, Int.sub_zero]
    exact ⟨rfl, hasked⟩

/-- One callback. -/
theorem Embedded.handle (h : Embedded habits start s s') (hlimit : (habits.limit : ℤ) ≤ longMax)
    (hbase : context.channelBaseOffset = start.position) (callback : ChannelCallback) :
    SameStep habits start (handleChannel (onChannel habits start) context callback s)
      (handleEmbedded (onChannel (habits.embedded start.position) start.embedded) context.rebase
        start.position callback s') := by
  cases callback with
  | read bytes => exact h.read hlimit bytes
  | write buffer => exact h.write hlimit (buffer.length + 1) buffer
  | seek offset => exact h.seek hlimit hbase offset
  | tell => exact h.tell hlimit hbase

/-- A sequence of callbacks: the same replies, and the same exception and bytes at its end. -/
theorem Embedded.run (h : Embedded habits start s s') (hlimit : (habits.limit : ℤ) ≤ longMax)
    (hbase : context.channelBaseOffset = start.position) (callbacks : List ChannelCallback) :
    SameStep habits start
      (runChannel (handleChannel (onChannel habits start) context) callbacks s)
      (runChannel (handleEmbedded (onChannel (habits.embedded start.position) start.embedded)
        context.rebase start.position) callbacks s') := by
  induction callbacks generalizing s s' with
  | nil => exact ⟨rfl, h⟩
  | cons callback callbacks ih =>
    obtain ⟨hreply, hnext⟩ := h.handle hlimit hbase callback
    have hrest := ih hnext
    refine ⟨?_, hrest.embedded⟩
    rw [runChannel, runChannel]
    dsimp only
    rw [hreply, hrest.reply]

end Embedded

/-! ## Offsets -/

section Offsets

variable {habits : ChannelHabits} {start : ByteChannel} {s s' : State} {context : EncodeContext}

/-- The next call on the channel is made and does not throw. -/
def ChannelReady (habits : ChannelHabits) (c : ByteChannel) (s : State) : Prop :=
  s.pending = none ∧ habits.failures c.calls = none

instance (habits : ChannelHabits) (c : ByteChannel) (s : State) : Decidable (ChannelReady habits c s) :=
  inferInstanceAs (Decidable (_ ∧ _))

theorem callChannel_ready (hready : ChannelReady habits (channelAfter habits start s.calls) s)
    (call : ChannelCall) {answer : ChannelAnswer}
    (hanswer : ((channelAfter habits start s.calls).perform habits (channelOp call)).1 =
      .ok answer) :
    s.callChannel (onChannel habits start) call =
      (some ⟨answer.value, answer.bytes⟩, { s with calls := s.calls ++ [call] }) := by
  unfold State.callChannel
  rw [if_neg (by simp [State.exceptionCheck, hready.1])]
  dsimp only [onChannel]
  rw [hanswer]
  rfl

/-- A call that is not made or throws gives no value and leaves the position. -/
theorem callChannel_not_ready (hready : ¬ ChannelReady habits (channelAfter habits start s.calls) s)
    (call : ChannelCall) :
    (s.callChannel (onChannel habits start) call).1 = none ∧
      (channelAfter habits start (s.callChannel (onChannel habits start) call).2.calls).position =
        (channelAfter habits start s.calls).position := by
  unfold State.callChannel
  by_cases hcheck : s.exceptionCheck = true
  · rw [if_pos hcheck]
    exact ⟨rfl, rfl⟩
  have hnone : s.pending = none := by simpa [State.exceptionCheck] using hcheck
  rw [if_neg hcheck]
  cases hfailure : habits.failures (channelAfter habits start s.calls).calls with
  | none => exact absurd ⟨hnone, hfailure⟩ hready
  | some exception =>
    have hperform : (channelAfter habits start s.calls).perform habits (channelOp call) =
        (.error exception, { channelAfter habits start s.calls with
          calls := (channelAfter habits start s.calls).calls + 1 }) := by
      unfold ByteChannel.perform
      rw [hfailure]
    dsimp only [onChannel]
    rw [hperform]
    refine ⟨rfl, ?_⟩
    dsimp only [Except.map]
    rw [channelAfter_snoc, hperform]

/-- What the callbacks make of the offsets on the caller's channel. -/
structure RelativeOffsets (habits : ChannelHabits) (start : ByteChannel) (context : EncodeContext)
    (s : State) : Prop where
  tell : (encodeChannelTellCallback (onChannel habits start) context s).1 =
    if ChannelReady habits (channelAfter habits start s.calls) s then
      some ((channelAfter habits start s.calls).position - start.position)
    else none
  /-- A seek moves the channel, or reports an error and leaves it. -/
  seek : ∀ offset,
    let sought := encodeChannelSeekCallback (onChannel habits start) context offset s
    (sought.1 = true ↔ (start.position : ℤ) + offset ≤ longMax ∧
        ChannelReady habits (channelAfter habits start s.calls) s) ∧
      (channelAfter habits start sought.2.calls).position =
        if sought.1 then start.position + offset else (channelAfter habits start s.calls).position
  /-- A tell after a seek gives the same offset, unless it fails. -/
  seekTell : ∀ offset,
    let sought := encodeChannelSeekCallback (onChannel habits start) context offset s
    let told := encodeChannelTellCallback (onChannel habits start) context sought.2
    sought.1 = true → ∀ value, told.1 = some value → value = offset
  /-- An offset that does not fit is refused before the channel is called. -/
  refused : ∀ offset : ℕ, longMax < (start.position : ℤ) + offset →
    encodeChannelSeekCallback (onChannel habits start) context offset s = (false, s)

theorem Embedded.tell_eq (h : Embedded habits start s s') (houtput : context.outputChannel = true)
    (hbase : context.channelBaseOffset = start.position) :
    (encodeChannelTellCallback (onChannel habits start) context s).1 =
      if ChannelReady habits (channelAfter habits start s.calls) s then
        some ((channelAfter habits start s.calls).position - start.position)
      else none := by
  unfold encodeChannelTellCallback
  rw [if_neg (by simp [houtput]), hbase]
  by_cases hready : ChannelReady habits (channelAfter habits start s.calls) s
  · have hposition := Streams.ByteChannel.perform_position hready.2
    have hbefore := h.before.position
    rw [callChannel_ready hready .position (congrArg Prod.fst hposition), if_pos hready]
    dsimp only
    rw [if_neg (by omega), ← Int.natCast_sub hbefore, Int.toNat_natCast]
  · obtain ⟨hnone, -⟩ := callChannel_not_ready hready .position
    rw [if_neg hready]
    rcases hcalled : s.callChannel (onChannel habits start) .position with ⟨value, t⟩
    rw [hcalled] at hnone
    cases hnone
    rfl

theorem Embedded.refused (h : Embedded habits start s s')
    (hbase : context.channelBaseOffset = start.position) {offset : ℕ}
    (hlarge : longMax < (start.position : ℤ) + offset) :
    encodeChannelSeekCallback (onChannel habits start) context offset s = (false, s) := by
  unfold encodeChannelSeekCallback
  dsimp only
  rw [hbase, decide_eq_true ((h.offset offset).mpr hlarge), Bool.or_true, if_pos rfl]

theorem Embedded.seek_eq (h : Embedded habits start s s') (houtput : context.outputChannel = true)
    (hbase : context.channelBaseOffset = start.position) (offset : ℕ) :
    let sought := encodeChannelSeekCallback (onChannel habits start) context offset s
    (sought.1 = true ↔ (start.position : ℤ) + offset ≤ longMax ∧
        ChannelReady habits (channelAfter habits start s.calls) s) ∧
      (channelAfter habits start sought.2.calls).position =
        if sought.1 then start.position + offset
        else (channelAfter habits start s.calls).position := by
  dsimp only
  by_cases hlarge : longMax < (start.position : ℤ) + offset
  · rw [h.refused hbase hlarge]
    exact ⟨⟨nofun, fun hfits => absurd hlarge (by omega)⟩, rfl⟩
  have hcast : (start.position : ℤ) + offset = ((start.position + offset : ℕ) : ℤ) :=
    (Int.natCast_add _ _).symm
  have hsmall : ¬ (longMax - (start.position : ℤ)).toNat < offset := mt (h.offset offset).mp hlarge
  unfold encodeChannelSeekCallback
  dsimp only
  rw [hbase, if_neg (by simpa [houtput] using hsmall), hcast]
  by_cases hready : ChannelReady habits (channelAfter habits start s.calls) s
  · have hset := Streams.ByteChannel.perform_setPosition hready.2 (start.position + offset)
    rw [callChannel_ready hready (.setPosition ↑(start.position + offset))
      (congrArg Prod.fst hset)]
    refine ⟨⟨fun _ => ⟨by omega, hready⟩, fun _ => rfl⟩, ?_⟩
    dsimp only
    rw [channelAfter_snoc]
    exact congrArg (fun result => result.2.position) hset
  · obtain ⟨hnone, hposition⟩ := callChannel_not_ready hready
      (.setPosition ↑(start.position + offset))
    rcases hcalled : s.callChannel (onChannel habits start)
      (.setPosition ↑(start.position + offset)) with ⟨value, t⟩
    rw [hcalled] at hnone hposition
    cases hnone
    exact ⟨⟨nofun, fun hfits => absurd hfits.2 hready⟩, hposition⟩

theorem Embedded.seekTell (h : Embedded habits start s s') (hlimit : (habits.limit : ℤ) ≤ longMax)
    (houtput : context.outputChannel = true) (hbase : context.channelBaseOffset = start.position)
    (offset : ℕ) :
    let sought := encodeChannelSeekCallback (onChannel habits start) context offset s
    let told := encodeChannelTellCallback (onChannel habits start) context sought.2
    sought.1 = true → ∀ value, told.1 = some value → value = offset := by
  dsimp only
  intro hsought value htold
  have hnext := (h.seek hlimit hbase offset).embedded
  have hposition := (h.seek_eq houtput hbase offset).2
  rw [hsought, if_pos rfl] at hposition
  rw [hnext.tell_eq houtput hbase] at htold
  split at htold
  · have hvalue := Option.some.inj htold
    omega
  · cases htold

theorem Embedded.relativeOffsets (h : Embedded habits start s s')
    (hlimit : (habits.limit : ℤ) ≤ longMax) (houtput : context.outputChannel = true)
    (hbase : context.channelBaseOffset = start.position) :
    RelativeOffsets habits start context s where
  tell := h.tell_eq houtput hbase
  seek := h.seek_eq houtput hbase
  seekTell := h.seekTell hlimit houtput hbase
  refused _ := h.refused hbase

end Offsets

/-! ## Bytes -/

/-- What the callbacks make of the bytes of the caller's channel. -/
structure AbsoluteBytes (habits : ChannelHabits) (start : ByteChannel) (context : EncodeContext)
    (s : State) : Prop where
  /-- A write at an offset puts its bytes there, from the first one on and all of them if it reports
  success, and moves behind them; no other byte changes. -/
  write : ∀ offset, (channelAfter habits start s.calls).position = start.position + offset →
    ∀ buffer,
      let written := encodeChannelWriteCallback (onChannel habits start) context
        (buffer.length + 1) buffer s
      let after := channelAfter habits start written.2.calls
      ∃ count ≤ buffer.length,
        WrittenAt (start.position + offset) (buffer.take count)
          (channelAfter habits start s.calls).content after.content ∧
        after.position = start.position + (offset + count) ∧
        written.1 ≠ none ∧ (written.1 = some true → count = buffer.length)
  /-- A channel with room that does not throw and always takes something takes all of them. -/
  writeWilling : habits.Willing (channelAfter habits start s.calls).calls → s.pending = none →
    ∀ buffer, buffer.length ≤ intMax →
      (channelAfter habits start s.calls).position + buffer.length ≤ habits.limit →
      (encodeChannelWriteCallback (onChannel habits start) context (buffer.length + 1) buffer s).1 =
        some true
  /-- A read at an offset brings bytes that stand there and moves behind them, or it brings none and
  stays. It never changes the channel. -/
  read : ∀ offset, (channelAfter habits start s.calls).position = start.position + offset →
    ∀ bytes,
      let read := encodeChannelReadCallback (onChannel habits start) context bytes s
      let after := channelAfter habits start read.2.calls
      after.content = (channelAfter habits start s.calls).content ∧
        ((∃ count, 0 < count ∧ count ≤ bytes ∧
            start.position + offset + count ≤
              (channelAfter habits start s.calls).content.length ∧
            read.1 = .cont count
              (((channelAfter habits start s.calls).content.drop (start.position + offset)).take
                count) ∧
            after.position = start.position + (offset + count)) ∨
          (read.1 = .endOfStream ∨ read.1 = .abort) ∧ after.position = start.position + offset)
  /-- A channel that does not throw and always gives something is read up to its end. -/
  readWilling : habits.Willing (channelAfter habits start s.calls).calls → s.pending = none →
    ∀ bytes : ℕ, 0 < bytes → bytes ≤ intMax →
      let read := encodeChannelReadCallback (onChannel habits start) context bytes s
      if (channelAfter habits start s.calls).content.length ≤
          (channelAfter habits start s.calls).position then
        read.1 = .endOfStream
      else ∃ count buffer, read.1 = .cont count buffer

section Bytes

variable (habits : ChannelHabits) (start : ByteChannel)

/-- A call is answered by the channel, or it leaves the bytes and the position. -/
theorem callChannel_onChannel (s : State) (call : ChannelCall) :
    (∃ answer,
      ((channelAfter habits start s.calls).perform habits (channelOp call)).1 = .ok answer ∧
      s.callChannel (onChannel habits start) call =
        (some ⟨answer.value, answer.bytes⟩, { s with calls := s.calls ++ [call] })) ∨
    ∃ s', s.callChannel (onChannel habits start) call = (none, s') ∧
      (channelAfter habits start s'.calls).content =
        (channelAfter habits start s.calls).content ∧
      (channelAfter habits start s'.calls).position =
        (channelAfter habits start s.calls).position := by
  unfold State.callChannel
  by_cases hcheck : s.exceptionCheck = true
  · rw [if_pos hcheck]
    exact .inr ⟨s, rfl, rfl, rfl⟩
  rw [if_neg hcheck]
  dsimp only [onChannel]
  cases hanswer : ((channelAfter habits start s.calls).perform habits (channelOp call)).1 with
  | ok answer => exact .inl ⟨answer, rfl, rfl⟩
  | error exception =>
    refine .inr ⟨_, rfl, ?_⟩
    dsimp only [Except.map]
    rw [channelAfter_snoc, ByteChannel.perform_error hanswer]
    exact ⟨rfl, rfl⟩

/-- An allocation leaves the bytes and the position. -/
theorem channelAfter_allocated (calls : List ChannelCall) (capacity : ℕ) :
    channelAfter habits start (calls ++ [.newDirectByteBuffer capacity]) =
      { channelAfter habits start calls with
        calls := (channelAfter habits start calls).calls + 1 } := by
  rw [channelAfter_snoc]
  exact ByteChannel.perform_allocate habits _

variable (context : EncodeContext)

theorem encodeChannelReadCallback_onChannel (s : State) (bytes : ℕ) :
    let read := encodeChannelReadCallback (onChannel habits start) context bytes s
    let after := channelAfter habits start read.2.calls
    after.content = (channelAfter habits start s.calls).content ∧
      ((∃ count, 0 < count ∧ count ≤ bytes ∧
          (channelAfter habits start s.calls).position + count ≤
            (channelAfter habits start s.calls).content.length ∧
          read.1 = .cont count (((channelAfter habits start s.calls).content.drop
            (channelAfter habits start s.calls).position).take count) ∧
          after.position = (channelAfter habits start s.calls).position + count) ∨
        (read.1 = .endOfStream ∨ read.1 = .abort) ∧
          after.position = (channelAfter habits start s.calls).position) := by
  dsimp only
  unfold encodeChannelReadCallback
  split
  · exact ⟨rfl, .inr ⟨.inr rfl, rfl⟩⟩
  split
  · exact ⟨rfl, .inr ⟨.inr rfl, rfl⟩⟩
  split
  · exact ⟨rfl, .inr ⟨.inr rfl, rfl⟩⟩
  split
  · exact ⟨rfl, .inr ⟨.inr rfl, rfl⟩⟩
  obtain ⟨_, -, hbuffer⟩ | ⟨s', hbuffer, hcontent, hposition⟩ :=
    callChannel_onChannel habits start s (.newDirectByteBuffer bytes)
  swap
  · rw [hbuffer]
    exact ⟨hcontent, .inr ⟨.inr rfl, hposition⟩⟩
  have hallocated := channelAfter_allocated habits start s.calls bytes
  rw [hbuffer]
  dsimp only
  obtain ⟨answer, hanswer, hread⟩ | ⟨s', hread, hcontent, hposition⟩ :=
    callChannel_onChannel habits start
      { s with calls := s.calls ++ [.newDirectByteBuffer bytes] } (.read bytes)
  swap
  · rw [hread]
    dsimp only at hcontent hposition
    rw [hallocated] at hcontent hposition
    exact ⟨hcontent, .inr ⟨.inr rfl, hposition⟩⟩
  obtain ⟨hcontent, hbytes⟩ := ByteChannel.perform_read hanswer
  have hafter := channelAfter_snoc habits start (s.calls ++ [.newDirectByteBuffer bytes])
    (.read bytes)
  dsimp only [channelOp] at hcontent hbytes hafter
  rw [← hafter, hallocated] at hcontent hbytes
  dsimp only at hcontent hbytes
  rw [hread]
  dsimp only
  obtain ⟨-, rfl, hposition⟩ | ⟨hmore, hvalue, hlength, hbytes, hposition⟩ := hbytes
  · rw [if_pos (by decide)]
    exact ⟨hcontent, .inr ⟨.inl rfl, hposition⟩⟩
  rw [hvalue]
  split
  · rename_i hzero
    have hempty : answer.bytes.length = 0 := by omega
    refine ⟨hcontent, .inr ⟨.inl rfl, ?_⟩⟩
    rw [hposition, hempty, Nat.add_zero]
  · rename_i hsome
    refine ⟨hcontent, .inl ⟨answer.bytes.length, by omega, by omega, by omega, ?_, hposition⟩⟩
    rw [Int.toNat_natCast, ← hbytes]

/-- The loop writes the bytes from the total on where the channel stands. -/
theorem writeLoop_onChannel (buffer : List UInt8) (rounds writtenTotal : ℕ) (s : State)
    (htotal : writtenTotal ≤ buffer.length) (hrounds : buffer.length - writtenTotal < rounds) :
    let written := writeLoop (onChannel habits start) buffer rounds writtenTotal s
    let after := channelAfter habits start written.2.calls
    ∃ count, writtenTotal + count ≤ buffer.length ∧
      WrittenAt (channelAfter habits start s.calls).position
        ((buffer.drop writtenTotal).take count) (channelAfter habits start s.calls).content
        after.content ∧
      after.position = (channelAfter habits start s.calls).position + count ∧
      written.1 ≠ none ∧ (written.1 = some true → writtenTotal + count = buffer.length) := by
  dsimp only
  induction rounds generalizing s writtenTotal with
  | zero => omega
  | succ rounds ih =>
    have hnothing : WrittenAt (channelAfter habits start s.calls).position
        ((buffer.drop writtenTotal).take 0) (channelAfter habits start s.calls).content
        (channelAfter habits start s.calls).content := .refl _ _
    rw [writeLoop]
    by_cases hmore : writtenTotal < buffer.length
    swap
    · rw [if_neg hmore]
      exact ⟨0, htotal, hnothing, rfl, by simp, fun _ => by omega⟩
    rw [if_pos hmore]
    obtain ⟨answer, hanswer, hcall⟩ | ⟨s', hcall, hcontent, hposition⟩ :=
      callChannel_onChannel habits start s (.write (buffer.drop writtenTotal))
    swap
    · rw [hcall]
      refine ⟨0, htotal, ?_, hposition, by simp, by simp⟩
      rw [hcontent]
      exact hnothing
    obtain ⟨count, hcount, rfl, -, hwritten, hposition⟩ := ByteChannel.perform_write hanswer
    have hafter := channelAfter_snoc habits start s.calls (.write (buffer.drop writtenTotal))
    dsimp only [channelOp] at hafter
    rw [List.length_drop] at hcount
    rw [← hafter] at hwritten hposition
    rw [hcall]
    dsimp only
    by_cases hzero : (count : ℤ) ≤ 0
    · obtain rfl : count = 0 := by omega
      rw [if_pos hzero]
      exact ⟨0, htotal, hwritten, hposition, by simp, by simp⟩
    rw [if_neg hzero, Int.toNat_natCast]
    obtain ⟨rest, hrest, hwrittenRest, hpositionRest, hends, hall⟩ :=
      ih (writtenTotal + count) { s with calls := s.calls ++ [.write (buffer.drop writtenTotal)] }
        (by omega) (by omega)
    dsimp only at hwrittenRest hpositionRest
    have hlength : ((buffer.drop writtenTotal).take count).length = count := by
      rw [List.length_take, List.length_drop]
      omega
    refine ⟨count + rest, by omega, ?_, ?_, hends, fun hok => ?_⟩
    · -- the rest stands right behind what this round has written
      rw [List.take_add, List.drop_drop]
      refine hwritten.append ?_
      rwa [hlength, ← hposition]
    · rw [hpositionRest, hposition, Nat.add_assoc]
    · have hdone := hall hok
      omega

theorem encodeChannelWriteCallback_onChannel (s : State) (buffer : List UInt8) :
    let written := encodeChannelWriteCallback (onChannel habits start) context
      (buffer.length + 1) buffer s
    let after := channelAfter habits start written.2.calls
    ∃ count ≤ buffer.length,
      WrittenAt (channelAfter habits start s.calls).position (buffer.take count)
        (channelAfter habits start s.calls).content after.content ∧
      after.position = (channelAfter habits start s.calls).position + count ∧
      written.1 ≠ none ∧ (written.1 = some true → count = buffer.length) := by
  dsimp only
  have hnothing : WrittenAt (channelAfter habits start s.calls).position (buffer.take 0)
      (channelAfter habits start s.calls).content (channelAfter habits start s.calls).content :=
    .refl _ _
  unfold encodeChannelWriteCallback
  split
  · exact ⟨0, Nat.zero_le _, hnothing, rfl, by simp, by simp⟩
  split
  · exact ⟨0, Nat.zero_le _, hnothing, rfl, by simp, by simp⟩
  split
  · exact ⟨0, Nat.zero_le _, hnothing, rfl, by simp, by simp⟩
  obtain ⟨_, -, hbuffer⟩ | ⟨s', hbuffer, hcontent, hposition⟩ :=
    callChannel_onChannel habits start s (.newDirectByteBuffer buffer.length)
  swap
  · rw [hbuffer]
    refine ⟨0, Nat.zero_le _, ?_, hposition, by simp, by simp⟩
    rw [hcontent]
    exact hnothing
  rw [hbuffer]
  obtain ⟨count, hcount, hwritten, hposition, hends, hall⟩ :=
    writeLoop_onChannel habits start buffer (buffer.length + 1) 0
      { s with calls := s.calls ++ [.newDirectByteBuffer buffer.length] } (Nat.zero_le _) (by omega)
  dsimp only at hwritten hposition
  rw [channelAfter_allocated] at hwritten hposition
  rw [Nat.zero_add] at hcount hall
  exact ⟨count, hcount, hwritten, hposition, hends, hall⟩

end Bytes

section Willing

variable {habits : ChannelHabits} {start : ByteChannel} {context : EncodeContext}

theorem writeLoop_willing (buffer : List UInt8) (rounds writtenTotal : ℕ) (s : State)
    (hwilling : habits.Willing (channelAfter habits start s.calls).calls)
    (hnone : s.pending = none) (htotal : writtenTotal ≤ buffer.length)
    (hrounds : buffer.length - writtenTotal < rounds)
    (hroom : (channelAfter habits start s.calls).position + (buffer.length - writtenTotal) ≤
      habits.limit) :
    (writeLoop (onChannel habits start) buffer rounds writtenTotal s).1 = some true := by
  induction rounds generalizing s writtenTotal with
  | zero => omega
  | succ rounds ih =>
    rw [writeLoop]
    by_cases hmore : writtenTotal < buffer.length
    swap
    · rw [if_neg hmore]
    rw [if_pos hmore]
    obtain ⟨hfailure, hportion⟩ := hwilling _ (Nat.le_refl _)
    have hlength : (buffer.drop writtenTotal).length = buffer.length - writtenTotal :=
      List.length_drop
    obtain ⟨answer, hanswer⟩ := ByteChannel.perform_write_ok (buffer.drop writtenTotal)
      hfailure (by omega)
    obtain ⟨count, hcount, rfl, hmin, -, hposition⟩ := ByteChannel.perform_write hanswer
    have hafter := channelAfter_snoc habits start s.calls (.write (buffer.drop writtenTotal))
    have hcalls := ByteChannel.calls_perform habits (channelAfter habits start s.calls)
      (.write (buffer.drop writtenTotal))
    dsimp only [channelOp] at hafter
    rw [← hafter] at hposition hcalls
    rw [callChannel_ready ⟨hnone, hfailure⟩ (.write (buffer.drop writtenTotal)) hanswer]
    dsimp only
    rw [if_neg (by omega), Int.toNat_natCast]
    refine ih (writtenTotal + count) _ ?_ hnone (by omega) (by omega) ?_
    · exact hwilling.mono (by rw [hcalls]; omega)
    · dsimp only
      rw [hposition]
      omega

theorem encodeChannelWriteCallback_willing {s : State} (houtput : context.outputChannel = true)
    (hwilling : habits.Willing (channelAfter habits start s.calls).calls)
    (hnone : s.pending = none) {buffer : List UInt8} (hmax : buffer.length ≤ intMax)
    (hroom : (channelAfter habits start s.calls).position + buffer.length ≤ habits.limit) :
    (encodeChannelWriteCallback (onChannel habits start) context (buffer.length + 1) buffer s).1 =
      some true := by
  have hallocated := channelAfter_allocated habits start s.calls buffer.length
  unfold encodeChannelWriteCallback
  rw [if_neg (by simp [houtput]), if_neg (by simp [State.exceptionCheck, hnone]),
    if_neg (Nat.not_lt.mpr hmax)]
  obtain ⟨answer, hanswer⟩ := ByteChannel.perform_allocate_ok (hwilling _ (Nat.le_refl _)).1
  rw [callChannel_ready ⟨hnone, (hwilling _ (Nat.le_refl _)).1⟩
    (.newDirectByteBuffer buffer.length) hanswer]
  dsimp only
  refine writeLoop_willing buffer _ 0 _ ?_ hnone (Nat.zero_le _) (by omega) ?_
  · dsimp only
    rw [hallocated]
    exact hwilling.mono (Nat.le_succ _)
  · dsimp only
    rw [hallocated]
    exact hroom

theorem encodeChannelReadCallback_willing {s : State} (houtput : context.outputChannel = true)
    (hwilling : habits.Willing (channelAfter habits start s.calls).calls)
    (hnone : s.pending = none) {bytes : ℕ} (hpos : 0 < bytes) (hmax : bytes ≤ intMax) :
    let read := encodeChannelReadCallback (onChannel habits start) context bytes s
    if (channelAfter habits start s.calls).content.length ≤
        (channelAfter habits start s.calls).position then
      read.1 = .endOfStream
    else ∃ count buffer, read.1 = .cont count buffer := by
  have hallocated := channelAfter_allocated habits start s.calls bytes
  obtain ⟨hfailure, -⟩ := hwilling _ (Nat.le_refl _)
  obtain ⟨hfailure', hportion⟩ := hwilling _
    (Nat.le_add_right (channelAfter habits start s.calls).calls 1)
  obtain ⟨allocated, hallocate⟩ := ByteChannel.perform_allocate_ok hfailure
  have hready : ChannelReady habits
      (channelAfter habits start (s.calls ++ [.newDirectByteBuffer bytes])) s := by
    rw [hallocated]
    exact ⟨hnone, hfailure'⟩
  obtain ⟨answer, hanswer⟩ := ByteChannel.perform_read_ok bytes hready.2
  obtain ⟨-, hbytes⟩ := ByteChannel.perform_read hanswer
  rw [hallocated] at hbytes
  dsimp only at hbytes ⊢
  unfold encodeChannelReadCallback
  have houtput' : ¬ (!context.outputChannel) = true := by simp [houtput]
  have hchecked : ¬ s.exceptionCheck = true := by simp [State.exceptionCheck, hnone]
  have hasked : ¬ bytes = 0 := Nat.pos_iff_ne_zero.mp hpos
  have hfits : ¬ intMax < bytes := Nat.not_lt.mpr hmax
  rw [if_neg houtput', if_neg hchecked, if_neg hasked, if_neg hfits,
    callChannel_ready ⟨hnone, hfailure⟩ (.newDirectByteBuffer bytes) hallocate]
  dsimp only
  rw [callChannel_ready (s := { s with calls := s.calls ++ [.newDirectByteBuffer bytes] }) hready
    (.read bytes) hanswer]
  dsimp only
  obtain ⟨hend, rfl, -⟩ | ⟨hmore, hvalue, hlength, -, -⟩ := hbytes
  · rw [if_pos hend, if_pos (by decide)]
  · rw [if_neg (Nat.not_le.mpr hmore), hvalue, if_neg (by omega)]
    exact ⟨_, _, rfl⟩

theorem absoluteBytes (houtput : context.outputChannel = true) (s : State) :
    AbsoluteBytes habits start context s where
  write offset hoffset buffer := by
    have hwrite := encodeChannelWriteCallback_onChannel habits start context s buffer
    rw [hoffset] at hwrite
    simpa only [Nat.add_assoc] using hwrite
  writeWilling hwilling hnone _ hmax hroom :=
    encodeChannelWriteCallback_willing houtput hwilling hnone hmax hroom
  read offset hoffset bytes := by
    have hread := encodeChannelReadCallback_onChannel habits start context s bytes
    rw [hoffset] at hread
    simpa only [Nat.add_assoc] using hread
  readWilling hwilling hnone _ hpos hmax :=
    encodeChannelReadCallback_willing houtput hwilling hnone hpos hmax

end Willing

end JFlac.Encode
