import JFlac.Decode.Transport
import JFlac.Streams.Embedding

/-!
# Decoding an embedded stream

The channel callbacks of the decoder on a channel of the caller, from the position that was captured
at open. They are compared with the same callbacks on the channel of the bytes from there on, with a
base offset of zero.
-/

namespace JFlac.Decode

open Machine
open Streams (ByteChannel ChannelHabits ChannelOp ChannelAnswer Embeds)

/-! ## Callbacks on a channel -/

/-- The call on the channel; those on an `InputStream` are never made. -/
def channelOp : TransportCall → ChannelOp
  | .newByteArray _ | .newDirectByteBuffer _ | .inputRead _ | .getByteArrayRegion _ => .allocate
  | .channelRead capacity => .read capacity
  | .position => .position
  | .setPosition target => .setPosition target
  | .size => .size

/-- The channel after some calls. -/
def channelAfter (habits : ChannelHabits) (c : ByteChannel) (calls : List TransportCall) :
    ByteChannel :=
  c.after habits (calls.map channelOp)

/-- A JVM in which the caller has supplied a channel. -/
def Jvm.onChannel (J : Jvm) (habits : ChannelHabits) (c : ByteChannel) : Jvm :=
  { J with
    transport := fun history call =>
      ((channelAfter habits c history).perform habits (channelOp call)).1.map
        fun answer => ⟨answer.value, answer.bytes⟩ }

/-- The same decode context with another base offset. -/
def Machine.rebase (m : Machine) (base : ℤ) : Machine :=
  { m with
    context := { m.context with
      source := { m.context.source with channelBaseOffset := base } } }

/-- The callbacks on a stream of which no byte has an index above `longMax - b`: a seek beyond it is
an error. -/
def handleEmbedded (J : Jvm) (b : ℕ) : (callback : TransportCallback) → Machine →
    List TransportCall → TransportReply callback × Machine × List TransportCall
  | .seek offset, m, calls =>
    if (longMax - b).toNat < offset then (false, m, calls)
    else handleTransport J (.seek offset) m calls
  | callback, m, calls => handleTransport J callback m calls

/-- A sequence of callbacks, with their replies. -/
def runTransport (handle : (callback : TransportCallback) → Machine → List TransportCall →
      TransportReply callback × Machine × List TransportCall) :
    List TransportCallback → Machine → List TransportCall →
      List ((callback : TransportCallback) × TransportReply callback) × Machine ×
        List TransportCall
  | [], m, calls => ([], m, calls)
  | callback :: callbacks, m, calls =>
    let handled := handle callback m calls
    let rest := runTransport handle callbacks handled.2.1 handled.2.2
    (⟨callback, handled.1⟩ :: rest.1, rest.2)

/-! ## The embedding -/

/-- A call with its position moved by the base offset. -/
def shiftCall (b : ℕ) : TransportCall → TransportCall
  | .setPosition target => .setPosition (b + target)
  | call => call

/-- The value of a call, moved by the base offset if it is a position. -/
def shiftValue (b : ℕ) (call : TransportCall) (value : TransportValue) : TransportValue :=
  match call with
  | .position | .size => { value with value := b + value.value }
  | _ => value

theorem channelOp_shiftCall (b : ℕ) (call : TransportCall) :
    channelOp (shiftCall b call) = (channelOp call).shift b := by
  cases call <;> rfl

/-- Positions that a callback may set: not before the stream, and none that a `long` cannot hold. -/
def InRange (b : ℕ) : TransportCall → Prop
  | .setPosition target => 0 ≤ target ∧ b + target ≤ longMax
  | _ => True

/-- A decode on a channel and the decode on its bytes from the base offset on. -/
structure Embedded (habits : ChannelHabits) (start : ByteChannel) (m : Machine)
    (calls calls' : List TransportCall) : Prop where
  base : m.context.source.channelBaseOffset = start.position
  channel : m.context.source.seekableChannel = true
  embeds : Embeds start.position (channelAfter habits start calls)
    (channelAfter (habits.embedded start.position) start.embedded calls')
  before : ByteChannel.KeepsBefore start.position start (channelAfter habits start calls)
  fits : (channelAfter habits start calls).FitsLong
  inRange : ∀ target : ℤ, .setPosition target ∈ calls → start.position ≤ target ∧ target ≤ longMax

section Embedded

variable {habits : ChannelHabits} {start : ByteChannel} {m : Machine}
  {calls calls' : List TransportCall}

theorem channelAfter_snoc (habits : ChannelHabits) (c : ByteChannel) (calls : List TransportCall)
    (call : TransportCall) :
    channelAfter habits c (calls ++ [call]) =
      ((channelAfter habits c calls).perform habits (channelOp call)).2 := by
  rw [channelAfter, List.map_append, List.map_singleton, ByteChannel.after_snoc]
  rfl

/-- The same call keeps the two channels together, whatever exception is pending afterwards. -/
theorem Embedded.call (h : Embedded habits start m calls calls')
    (hsize : start.position ≤ start.content.length) (hlimit : (habits.limit : ℤ) ≤ longMax)
    {call : TransportCall} (hcall : InRange start.position call) (m' : Machine)
    (hcontext : m'.context = m.context) :
    Embedded habits start m' (calls ++ [shiftCall start.position call]) (calls' ++ [call]) := by
  have hasks : Embeds.Asks start.position (channelAfter habits start calls) (channelOp call) := by
    cases call with
    | setPosition target => exact hcall.1
    | size => exact Nat.le_trans hsize h.before.length
    | _ => trivial
  have hbehind : ByteChannel.StaysBehind start.position
      (channelOp (shiftCall start.position call)) := by
    cases call with
    | setPosition target =>
      have hnonneg := hcall.1
      show (start.position : ℤ) ≤ start.position + target
      omega
    | _ => trivial
  have hfits : ∀ target, channelOp (shiftCall start.position call) = .setPosition target →
      target ≤ longMax := by
    cases call with
    | setPosition target =>
      rintro _ ⟨⟩
      exact hcall.2
    | _ => exact nofun
  constructor
  case base => rw [hcontext, h.base]
  case channel => rw [hcontext, h.channel]
  case embeds =>
    rw [channelAfter_snoc, channelAfter_snoc, channelOp_shiftCall]
    exact (h.embeds.perform habits hasks).2
  case before =>
    rw [channelAfter_snoc]
    exact h.before.perform hbehind
  case fits =>
    rw [channelAfter_snoc]
    exact h.fits.perform hlimit hfits
  case inRange =>
    intro target hmem
    rcases List.mem_append.mp hmem with hmem | hmem
    · exact h.inRange target hmem
    · have htarget := List.mem_singleton.mp hmem
      cases call with
      | setPosition target' =>
        obtain rfl := TransportCall.setPosition.inj htarget
        have hnonneg := hcall.1
        exact ⟨by omega, hcall.2⟩
      | _ => cases htarget

variable (J : Jvm)

/-- The two decodes make the same call: both get a value, or both end with the same exception. -/
theorem Embedded.callTransport (h : Embedded habits start m calls calls')
    (hsize : start.position ≤ start.content.length) (hlimit : (habits.limit : ℤ) ≤ longMax)
    (moved call : TransportCall) (hmoved : moved = shiftCall start.position call)
    (hcall : InRange start.position call) :
    (∃ value, m.callTransport (J.onChannel habits start) moved calls =
        (some (shiftValue start.position call value), m, calls ++ [moved]) ∧
      (m.rebase 0).callTransport (J.onChannel (habits.embedded start.position) start.embedded) call
        calls' = (some value, m.rebase 0, calls' ++ [call]) ∧
      Embedded habits start m (calls ++ [moved]) (calls' ++ [call])) ∨
    ∃ m₁ calls₁ calls₁', m.callTransport (J.onChannel habits start) moved calls =
        (none, m₁, calls₁) ∧
      (m.rebase 0).callTransport (J.onChannel (habits.embedded start.position) start.embedded) call
        calls' = (none, m₁.rebase 0, calls₁') ∧
      Embedded habits start m₁ calls₁ calls₁' := by
  have hasks : Embeds.Asks start.position (channelAfter habits start calls) (channelOp call) := by
    cases call with
    | setPosition target => exact hcall.1
    | size => exact Nat.le_trans hsize h.before.length
    | _ => trivial
  have hanswer := (h.embeds.perform habits hasks).1
  rw [← channelOp_shiftCall, ← hmoved] at hanswer
  have hnext := h.call hsize hlimit hcall
  rw [← hmoved] at hnext
  have hpending : (m.rebase 0).exceptionCheck = m.exceptionCheck := rfl
  unfold Machine.callTransport
  rw [hpending]
  by_cases hcheck : m.exceptionCheck = true
  · rw [if_pos hcheck, if_pos hcheck]
    exact .inr ⟨m, calls, calls', rfl, rfl, h⟩
  rw [if_neg hcheck, if_neg hcheck]
  dsimp only [Jvm.onChannel]
  rw [hanswer]
  cases ((channelAfter (habits.embedded start.position) start.embedded calls').perform
    (habits.embedded start.position) (channelOp call)).1 with
  | ok answer =>
    refine .inl ⟨⟨answer.value, answer.bytes⟩, ?_, rfl, hnext m rfl⟩
    cases call <;> rfl
  | error exception => exact .inr ⟨_, _, _, rfl, rfl, hnext _ rfl⟩

/-- Both decodes go on from the same machine and the same bytes. -/
structure SameStep {α : Type} (habits : ChannelHabits) (start : ByteChannel)
    (full sub : α × Machine × List TransportCall) : Prop where
  reply : full.1 = sub.1
  machine : sub.2.1 = full.2.1.rebase 0
  embedded : Embedded habits start full.2.1 full.2.2 sub.2.2

theorem Embedded.read (h : Embedded habits start m calls calls')
    (hsize : start.position ≤ start.content.length) (hlimit : (habits.limit : ℤ) ≤ longMax)
    (bytes : ℕ) :
    SameStep habits start (decodeChannelReadCallback (J.onChannel habits start) bytes m calls)
      (decodeChannelReadCallback (J.onChannel (habits.embedded start.position) start.embedded) bytes
        (m.rebase 0) calls') := by
  have hpending : (m.rebase 0).exceptionCheck = m.exceptionCheck := rfl
  have hchannel : (m.rebase 0).context.source.seekableChannel =
      m.context.source.seekableChannel := rfl
  unfold decodeChannelReadCallback
  rw [hpending, hchannel]
  split
  · exact ⟨rfl, rfl, h⟩
  split
  · exact ⟨rfl, rfl, h⟩
  split
  · exact ⟨rfl, rfl, ⟨h.base, h.channel, h.embeds, h.before, h.fits, h.inRange⟩⟩
  obtain ⟨_, hfull, hsub, hbuffer⟩ | ⟨m₁, calls₁, calls₁', hfull, hsub, hfailed⟩ :=
    h.callTransport J hsize hlimit (.newDirectByteBuffer bytes) (.newDirectByteBuffer bytes) rfl
      trivial
  swap
  · rw [hfull, hsub]
    exact ⟨rfl, rfl, hfailed⟩
  rw [hfull, hsub]
  dsimp only
  obtain ⟨read, hfull, hsub, hread⟩ | ⟨m₁, calls₁, calls₁', hfull, hsub, hfailed⟩ :=
    hbuffer.callTransport J hsize hlimit (.channelRead bytes) (.channelRead bytes) rfl trivial
  swap
  · rw [hfull, hsub]
    exact ⟨rfl, rfl, hfailed⟩
  rw [hfull, hsub]
  dsimp only [shiftValue]
  split
  · exact ⟨rfl, rfl, hread⟩
  split
  · exact ⟨rfl, rfl, ⟨hread.base, hread.channel, hread.embeds, hread.before, hread.fits,
      hread.inRange⟩⟩
  · exact ⟨rfl, rfl, hread⟩

/-- An offset is in range exactly when its sum with the base offset fits a `long`. -/
theorem Embedded.offset (h : Embedded habits start m calls calls') (offset : ℕ) :
    (longMax - m.context.source.channelBaseOffset).toNat < offset ↔
      longMax < (start.position : ℤ) + offset := by
  have hfits := h.fits.position
  have hbefore := h.before.position
  rw [h.base]
  unfold longMax at hfits ⊢
  omega

theorem Embedded.seek (h : Embedded habits start m calls calls')
    (hsize : start.position ≤ start.content.length) (hlimit : (habits.limit : ℤ) ≤ longMax)
    (offset : ℕ) :
    SameStep habits start (decodeChannelSeekCallback (J.onChannel habits start) offset m calls)
      (handleEmbedded (J.onChannel (habits.embedded start.position) start.embedded) start.position
        (.seek offset) (m.rebase 0) calls') := by
  have hoffset := h.offset offset
  rw [handleEmbedded, handleTransport]
  unfold decodeChannelSeekCallback
  dsimp only
  by_cases hlarge : longMax < (start.position : ℤ) + offset
  · rw [if_pos (by simp [hoffset.mpr hlarge]), if_pos (by rw [← h.base]; exact hoffset.mpr hlarge)]
    exact ⟨rfl, rfl, h⟩
  have hsub : ¬ (longMax - (0 : ℤ)).toNat < offset := by
    unfold longMax at hlarge ⊢
    omega
  rw [if_neg (by simp [h.channel, hoffset, hlarge]),
    if_neg (by rw [← h.base]; exact mt hoffset.mp hlarge),
    if_neg (by simpa [Machine.rebase, h.channel] using hsub)]
  obtain ⟨_, hfull, hsub, hmoved⟩ | ⟨m₁, calls₁, calls₁', hfull, hsub, hfailed⟩ :=
    h.callTransport J hsize hlimit (.setPosition (start.position + offset)) (.setPosition offset)
      rfl ⟨Int.natCast_nonneg _, by omega⟩
  · rw [h.base, hfull, show (m.rebase 0).context.source.channelBaseOffset = 0 from rfl,
      Int.zero_add, hsub]
    exact ⟨rfl, rfl, hmoved⟩
  · rw [h.base, hfull, show (m.rebase 0).context.source.channelBaseOffset = 0 from rfl,
      Int.zero_add, hsub]
    exact ⟨rfl, rfl, hfailed⟩

theorem Embedded.channelOffset (h : Embedded habits start m calls calls')
    (hsize : start.position ≤ start.content.length) (hlimit : (habits.limit : ℤ) ≤ longMax)
    {call : TransportCall} (hcall : call = .position ∨ call = .size) :
    SameStep habits start (channelOffset (J.onChannel habits start) call m calls)
      (channelOffset (J.onChannel (habits.embedded start.position) start.embedded) call
        (m.rebase 0) calls') := by
  have hmoved : call = shiftCall start.position call := by
    rcases hcall with rfl | rfl <;> rfl
  have hrange : InRange start.position call := by
    rcases hcall with rfl | rfl <;> trivial
  have hchannel : (m.rebase 0).context.source.seekableChannel =
      m.context.source.seekableChannel := rfl
  unfold Decode.channelOffset
  rw [hchannel]
  split
  · exact ⟨rfl, rfl, h⟩
  obtain ⟨value, hfull, hsub, hasked⟩ | ⟨m₁, calls₁, calls₁', hfull, hsub, hfailed⟩ :=
    h.callTransport J hsize hlimit call call hmoved hrange
  swap
  · rw [hfull, hsub]
    exact ⟨rfl, rfl, hfailed⟩
  have hshift : (shiftValue start.position call value).value = start.position + value.value := by
    rcases hcall with rfl | rfl <;> rfl
  rw [hfull, hsub]
  dsimp only
  rw [hshift, h.base, show (m.rebase 0).context.source.channelBaseOffset = 0 from rfl]
  by_cases hneg : value.value < 0
  · rw [if_pos (by omega), if_pos hneg]
    exact ⟨rfl, rfl, hasked⟩
  · have hcancel : (start.position : ℤ) + value.value - start.position = value.value := by omega
    rw [if_neg (by omega), if_neg hneg, hcancel, Int.sub_zero]
    exact ⟨rfl, rfl, hasked⟩

theorem Embedded.eof (h : Embedded habits start m calls calls')
    (hsize : start.position ≤ start.content.length) (hlimit : (habits.limit : ℤ) ≤ longMax) :
    SameStep habits start (decodeChannelEofCallback (J.onChannel habits start) m calls)
      (decodeChannelEofCallback (J.onChannel (habits.embedded start.position) start.embedded)
        (m.rebase 0) calls') := by
  have hchannel : (m.rebase 0).context.source.seekableChannel =
      m.context.source.seekableChannel := rfl
  unfold decodeChannelEofCallback
  rw [hchannel]
  split
  · exact ⟨rfl, rfl, h⟩
  obtain ⟨position, hfull, hsub, hasked⟩ | ⟨m₁, calls₁, calls₁', hfull, hsub, hfailed⟩ :=
    h.callTransport J hsize hlimit .position .position rfl trivial
  swap
  · rw [hfull, hsub]
    exact ⟨rfl, rfl, hfailed⟩
  rw [hfull, hsub]
  dsimp only
  obtain ⟨size, hfull, hsub, hsized⟩ | ⟨m₁, calls₁, calls₁', hfull, hsub, hfailed⟩ :=
    hasked.callTransport J hsize hlimit .size .size rfl trivial
  swap
  · rw [hfull, hsub]
    exact ⟨rfl, rfl, hfailed⟩
  rw [hfull, hsub]
  refine ⟨?_, rfl, hsized⟩
  dsimp only [shiftValue]
  exact decide_eq_decide.mpr (by omega)

/-- One callback. -/
theorem Embedded.handle (h : Embedded habits start m calls calls')
    (hsize : start.position ≤ start.content.length) (hlimit : (habits.limit : ℤ) ≤ longMax)
    (callback : TransportCallback) :
    SameStep habits start (handleTransport (J.onChannel habits start) callback m calls)
      (handleEmbedded (J.onChannel (habits.embedded start.position) start.embedded) start.position
        callback (m.rebase 0) calls') := by
  cases callback with
  | read bytes =>
    have hread := h.read J hsize hlimit bytes
    have hchannel : (m.rebase 0).context.source.seekableChannel = true := h.channel
    simp only [handleTransport, handleEmbedded, decodeReadCallback, h.channel, hchannel, if_true]
    exact hread
  | seek offset => exact h.seek J hsize hlimit offset
  | tell => exact h.channelOffset J hsize hlimit (.inl rfl)
  | length => exact h.channelOffset J hsize hlimit (.inr rfl)
  | eof => exact h.eof J hsize hlimit

/-- A sequence of callbacks: the same replies, and the same machine and bytes at its end. -/
theorem Embedded.run (h : Embedded habits start m calls calls')
    (hsize : start.position ≤ start.content.length) (hlimit : (habits.limit : ℤ) ≤ longMax)
    (callbacks : List TransportCallback) :
    SameStep habits start (runTransport (handleTransport (J.onChannel habits start)) callbacks m
        calls)
      (runTransport (handleEmbedded (J.onChannel (habits.embedded start.position) start.embedded)
        start.position) callbacks (m.rebase 0) calls') := by
  induction callbacks generalizing m calls calls' with
  | nil => exact ⟨rfl, rfl, h⟩
  | cons callback callbacks ih =>
    obtain ⟨hreply, hmachine, hnext⟩ := h.handle J hsize hlimit callback
    have hrest := ih hnext
    rw [← hmachine] at hrest
    refine ⟨?_, hrest.machine, hrest.embedded⟩
    rw [runTransport, runTransport]
    dsimp only
    rw [hreply, hrest.reply]

end Embedded

/-! ## Offsets -/

section Offsets

variable {habits : ChannelHabits} {start : ByteChannel} {m : Machine}
  {calls calls' : List TransportCall}

/-- The next call on the channel is made and does not throw. -/
def ChannelReady (habits : ChannelHabits) (c : ByteChannel) (m : Machine) : Prop :=
  m.pending = none ∧ habits.failures c.calls = none

instance (habits : ChannelHabits) (c : ByteChannel) (m : Machine) :
    Decidable (ChannelReady habits c m) := inferInstanceAs (Decidable (_ ∧ _))

variable (J : Jvm)

theorem callTransport_ready (hready : ChannelReady habits (channelAfter habits start calls) m)
    (call : TransportCall) {answer : ChannelAnswer}
    (hanswer : ((channelAfter habits start calls).perform habits (channelOp call)).1 = .ok answer) :
    m.callTransport (J.onChannel habits start) call calls =
      (some ⟨answer.value, answer.bytes⟩, m, calls ++ [call]) := by
  unfold Machine.callTransport
  rw [if_neg (by simp [exceptionCheck, hready.1])]
  dsimp only [Jvm.onChannel]
  rw [hanswer]
  rfl

/-- A call that is not made or throws gives no value and leaves the position. -/
theorem callTransport_not_ready (hready : ¬ ChannelReady habits (channelAfter habits start calls) m)
    (call : TransportCall) :
    (m.callTransport (J.onChannel habits start) call calls).1 = none ∧
      (channelAfter habits start
        (m.callTransport (J.onChannel habits start) call calls).2.2).position =
          (channelAfter habits start calls).position := by
  unfold Machine.callTransport
  by_cases hcheck : m.exceptionCheck = true
  · rw [if_pos hcheck]
    exact ⟨rfl, rfl⟩
  have hnone : m.pending = none := by simpa [exceptionCheck] using hcheck
  rw [if_neg hcheck]
  cases hfailure : habits.failures (channelAfter habits start calls).calls with
  | none => exact absurd ⟨hnone, hfailure⟩ hready
  | some exception =>
    have hperform : (channelAfter habits start calls).perform habits (channelOp call) =
        (.error exception, { channelAfter habits start calls with
          calls := (channelAfter habits start calls).calls + 1 }) := by
      unfold ByteChannel.perform
      rw [hfailure]
    dsimp only [Jvm.onChannel]
    rw [hperform]
    refine ⟨rfl, ?_⟩
    dsimp only [Except.map]
    rw [channelAfter_snoc, hperform]

/-- What the callbacks make of the offsets on the caller's channel. -/
structure RelativeOffsets (habits : ChannelHabits) (start : ByteChannel) (m : Machine)
    (calls : List TransportCall) : Prop where
  tell : (decodeChannelTellCallback (J.onChannel habits start) m calls).1 =
    if ChannelReady habits (channelAfter habits start calls) m then
      some ((channelAfter habits start calls).position - start.position)
    else none
  length : (decodeChannelLengthCallback (J.onChannel habits start) m calls).1 =
    if ChannelReady habits (channelAfter habits start calls) m then
      some ((channelAfter habits start calls).content.length - start.position)
    else none
  eof : (decodeChannelEofCallback (J.onChannel habits start) m calls).1 =
    if ChannelReady habits (channelAfter habits start calls) m ∧
        habits.failures ((channelAfter habits start calls).calls + 1) = none then
      decide ((channelAfter habits start calls).content.length ≤
        (channelAfter habits start calls).position)
    else true
  /-- A seek moves the channel, or reports an error and leaves it. -/
  seek : ∀ offset,
    let sought := decodeChannelSeekCallback (J.onChannel habits start) offset m calls
    (sought.1 = true ↔ (start.position : ℤ) + offset ≤ longMax ∧
        ChannelReady habits (channelAfter habits start calls) m) ∧
      (channelAfter habits start sought.2.2).position =
        if sought.1 then start.position + offset else (channelAfter habits start calls).position
  /-- A tell after a seek gives the same offset, unless it fails. -/
  seekTell : ∀ offset,
    let sought := decodeChannelSeekCallback (J.onChannel habits start) offset m calls
    let told := decodeChannelTellCallback (J.onChannel habits start) sought.2.1 sought.2.2
    sought.1 = true → ∀ value, told.1 = some value → value = offset
  /-- An offset that does not fit is refused before the channel is called. -/
  refused : ∀ offset : ℕ, longMax < (start.position : ℤ) + offset →
    decodeChannelSeekCallback (J.onChannel habits start) offset m calls = (false, m, calls)

theorem Embedded.channelOffset_eq (h : Embedded habits start m calls calls')
    {call : TransportCall} {value : ℕ} (hvalue : start.position ≤ value)
    (hperform : habits.failures (channelAfter habits start calls).calls = none →
      ((channelAfter habits start calls).perform habits (channelOp call)).1 = .ok ⟨value, []⟩) :
    (Decode.channelOffset (J.onChannel habits start) call m calls).1 =
      if ChannelReady habits (channelAfter habits start calls) m then some (value - start.position)
      else none := by
  unfold Decode.channelOffset
  rw [if_neg (by simp [h.channel])]
  by_cases hready : ChannelReady habits (channelAfter habits start calls) m
  · rw [callTransport_ready J hready call (hperform hready.2), if_pos hready]
    dsimp only
    rw [h.base, if_neg (by omega), ← Int.natCast_sub hvalue, Int.toNat_natCast]
  · obtain ⟨hnone, -⟩ := callTransport_not_ready J hready call
    rw [if_neg hready]
    rcases hcalled : m.callTransport (J.onChannel habits start) call calls with ⟨value, m', calls'⟩
    rw [hcalled] at hnone
    cases hnone
    rfl

theorem Embedded.eof_eq (h : Embedded habits start m calls calls') :
    (decodeChannelEofCallback (J.onChannel habits start) m calls).1 =
      if ChannelReady habits (channelAfter habits start calls) m ∧
          habits.failures ((channelAfter habits start calls).calls + 1) = none then
        decide ((channelAfter habits start calls).content.length ≤
          (channelAfter habits start calls).position)
      else true := by
  unfold decodeChannelEofCallback
  rw [if_neg (by simp [h.channel])]
  by_cases hready : ChannelReady habits (channelAfter habits start calls) m
  swap
  · obtain ⟨hnone, -⟩ := callTransport_not_ready J hready .position
    rw [if_neg fun hboth => hready hboth.1]
    rcases hcalled : m.callTransport (J.onChannel habits start) .position calls with
      ⟨value, m', calls'⟩
    rw [hcalled] at hnone
    cases hnone
    rfl
  have hposition := ByteChannel.perform_position hready.2
  have hafter : channelAfter habits start (calls ++ [.position]) =
      { channelAfter habits start calls with
        calls := (channelAfter habits start calls).calls + 1 } := by
    rw [channelAfter_snoc]
    exact congrArg Prod.snd hposition
  rw [callTransport_ready J hready .position (congrArg Prod.fst hposition)]
  by_cases hfailure : habits.failures ((channelAfter habits start calls).calls + 1) = none
  · have hready' : ChannelReady habits (channelAfter habits start (calls ++ [.position])) m := by
      rw [hafter]
      exact ⟨hready.1, hfailure⟩
    have hsize := ByteChannel.perform_size hready'.2
    rw [if_pos ⟨hready, hfailure⟩]
    dsimp only
    rw [callTransport_ready J hready' .size (congrArg Prod.fst hsize), hafter]
    exact decide_eq_decide.mpr Int.ofNat_le
  · have hready' : ¬ ChannelReady habits (channelAfter habits start (calls ++ [.position])) m := by
      rw [hafter]
      exact fun hready' => hfailure hready'.2
    obtain ⟨hnone, -⟩ := callTransport_not_ready J hready' .size
    rw [if_neg fun hboth => hfailure hboth.2]
    dsimp only
    rcases hcalled : m.callTransport (J.onChannel habits start) .size (calls ++ [.position]) with
      ⟨value, m', calls'⟩
    rw [hcalled] at hnone
    cases hnone
    rw [hcalled]

theorem Embedded.refused (h : Embedded habits start m calls calls') {offset : ℕ}
    (hlarge : longMax < (start.position : ℤ) + offset) :
    decodeChannelSeekCallback (J.onChannel habits start) offset m calls = (false, m, calls) := by
  unfold decodeChannelSeekCallback
  dsimp only
  rw [if_pos (by simp [(h.offset offset).mpr hlarge])]

theorem Embedded.seek_eq (h : Embedded habits start m calls calls') (offset : ℕ) :
    let sought := decodeChannelSeekCallback (J.onChannel habits start) offset m calls
    (sought.1 = true ↔ (start.position : ℤ) + offset ≤ longMax ∧
        ChannelReady habits (channelAfter habits start calls) m) ∧
      (channelAfter habits start sought.2.2).position =
        if sought.1 then start.position + offset
        else (channelAfter habits start calls).position := by
  dsimp only
  by_cases hlarge : longMax < (start.position : ℤ) + offset
  · rw [h.refused J hlarge]
    exact ⟨⟨nofun, fun hfits => absurd hlarge (by omega)⟩, rfl⟩
  have hcast : (start.position : ℤ) + offset = ((start.position + offset : ℕ) : ℤ) :=
    (Int.natCast_add _ _).symm
  unfold decodeChannelSeekCallback
  dsimp only
  rw [if_neg (by simp [h.channel, h.offset offset, hlarge]), h.base, hcast]
  by_cases hready : ChannelReady habits (channelAfter habits start calls) m
  · have hset := ByteChannel.perform_setPosition hready.2 (start.position + offset)
    rw [callTransport_ready J hready (.setPosition ↑(start.position + offset))
      (congrArg Prod.fst hset)]
    refine ⟨⟨fun _ => ⟨by omega, hready⟩, fun _ => rfl⟩, ?_⟩
    dsimp only
    rw [channelAfter_snoc]
    exact congrArg (fun result => result.2.position) hset
  · obtain ⟨hnone, hposition⟩ := callTransport_not_ready J hready
      (.setPosition ↑(start.position + offset))
    rcases hcalled : m.callTransport (J.onChannel habits start)
      (.setPosition ↑(start.position + offset)) calls with ⟨value, m', calls'⟩
    rw [hcalled] at hnone hposition
    cases hnone
    exact ⟨⟨nofun, fun hfits => absurd hfits.2 hready⟩, hposition⟩

theorem Embedded.tell_eq (h : Embedded habits start m calls calls') :
    (decodeChannelTellCallback (J.onChannel habits start) m calls).1 =
      if ChannelReady habits (channelAfter habits start calls) m then
        some ((channelAfter habits start calls).position - start.position)
      else none :=
  h.channelOffset_eq J h.before.position fun hfailure =>
    congrArg Prod.fst (ByteChannel.perform_position hfailure)

theorem Embedded.seekTell (h : Embedded habits start m calls calls')
    (hsize : start.position ≤ start.content.length) (hlimit : (habits.limit : ℤ) ≤ longMax)
    (offset : ℕ) :
    let sought := decodeChannelSeekCallback (J.onChannel habits start) offset m calls
    let told := decodeChannelTellCallback (J.onChannel habits start) sought.2.1 sought.2.2
    sought.1 = true → ∀ value, told.1 = some value → value = offset := by
  dsimp only
  intro hsought value htold
  have hnext := (h.seek J hsize hlimit offset).embedded
  have hposition := (h.seek_eq J offset).2
  rw [hsought, if_pos rfl] at hposition
  rw [hnext.tell_eq J] at htold
  split at htold
  · have hvalue := Option.some.inj htold
    omega
  · cases htold

theorem Embedded.relativeOffsets (h : Embedded habits start m calls calls')
    (hsize : start.position ≤ start.content.length) (hlimit : (habits.limit : ℤ) ≤ longMax) :
    RelativeOffsets J habits start m calls where
  tell := h.tell_eq J
  length := h.channelOffset_eq J (Nat.le_trans hsize h.before.length) fun hfailure =>
    congrArg Prod.fst (ByteChannel.perform_size hfailure)
  eof := h.eof_eq J
  seek := h.seek_eq J
  seekTell := h.seekTell J hsize hlimit
  refused _ := h.refused J

end Offsets

/-! ## Bytes -/

section Bytes

variable {habits : ChannelHabits} {start : ByteChannel} {m : Machine}
  {calls calls' : List TransportCall}

/-- What the read callback makes of the bytes of the caller's channel. -/
structure AbsoluteReads (J : Jvm) (habits : ChannelHabits) (start : ByteChannel) (m : Machine)
    (calls : List TransportCall) : Prop where
  /-- A read at an offset brings bytes that stand there and moves behind them, or it brings none and
  stays. It never changes the channel. -/
  read : ∀ offset, (channelAfter habits start calls).position = start.position + offset →
    ∀ bytes,
      let read := decodeChannelReadCallback (J.onChannel habits start) bytes m calls
      let after := channelAfter habits start read.2.2
      after.content = (channelAfter habits start calls).content ∧
        ((∃ count, 0 < count ∧ count ≤ bytes ∧
            start.position + offset + count ≤ (channelAfter habits start calls).content.length ∧
            read.1 = .cont count
              (((channelAfter habits start calls).content.drop (start.position + offset)).take
                count) ∧
            after.position = start.position + (offset + count)) ∨
          (read.1 = .endOfStream ∨ read.1 = .abort) ∧ after.position = start.position + offset)
  /-- A channel that does not throw and always gives something is read up to its end. -/
  willing : habits.Willing (channelAfter habits start calls).calls → m.pending = none →
    ∀ bytes : ℕ, 0 < bytes → bytes ≤ intMax →
      let read := decodeChannelReadCallback (J.onChannel habits start) bytes m calls
      if (channelAfter habits start calls).content.length ≤
          (channelAfter habits start calls).position then
        read.1 = .endOfStream
      else ∃ count buffer, read.1 = .cont count buffer

section

variable (habits : ChannelHabits) (start : ByteChannel) (J : Jvm)

/-- A call is answered by the channel, or it leaves the bytes and the position. -/
theorem callTransport_onChannel (m : Machine) (calls : List TransportCall) (call : TransportCall) :
    (∃ answer, ((channelAfter habits start calls).perform habits (channelOp call)).1 = .ok answer ∧
      m.callTransport (J.onChannel habits start) call calls =
        (some ⟨answer.value, answer.bytes⟩, m, calls ++ [call])) ∨
    ∃ m' calls', m.callTransport (J.onChannel habits start) call calls = (none, m', calls') ∧
      (channelAfter habits start calls').content = (channelAfter habits start calls).content ∧
      (channelAfter habits start calls').position = (channelAfter habits start calls).position := by
  unfold Machine.callTransport
  by_cases hcheck : m.exceptionCheck = true
  · rw [if_pos hcheck]
    exact .inr ⟨m, calls, rfl, rfl, rfl⟩
  rw [if_neg hcheck]
  dsimp only [Jvm.onChannel]
  cases hanswer : ((channelAfter habits start calls).perform habits (channelOp call)).1 with
  | ok answer => exact .inl ⟨answer, rfl, rfl⟩
  | error exception =>
    refine .inr ⟨_, _, rfl, ?_⟩
    rw [channelAfter_snoc, ByteChannel.perform_error hanswer]
    exact ⟨rfl, rfl⟩

theorem decodeChannelReadCallback_onChannel (m : Machine) (calls : List TransportCall)
    (bytes : ℕ) :
    let read := decodeChannelReadCallback (J.onChannel habits start) bytes m calls
    let after := channelAfter habits start read.2.2
    after.content = (channelAfter habits start calls).content ∧
      ((∃ count, 0 < count ∧ count ≤ bytes ∧
          (channelAfter habits start calls).position + count ≤
            (channelAfter habits start calls).content.length ∧
          read.1 = .cont count (((channelAfter habits start calls).content.drop
            (channelAfter habits start calls).position).take count) ∧
          after.position = (channelAfter habits start calls).position + count) ∨
        (read.1 = .endOfStream ∨ read.1 = .abort) ∧
          after.position = (channelAfter habits start calls).position) := by
  dsimp only
  unfold decodeChannelReadCallback
  split
  · exact ⟨rfl, .inr ⟨.inr rfl, rfl⟩⟩
  split
  · exact ⟨rfl, .inr ⟨.inr rfl, rfl⟩⟩
  split
  · exact ⟨rfl, .inr ⟨.inr rfl, rfl⟩⟩
  obtain ⟨_, -, hbuffer⟩ | ⟨m', calls', hbuffer, hcontent, hposition⟩ :=
    callTransport_onChannel habits start J m calls
      (.newDirectByteBuffer bytes)
  swap
  · rw [hbuffer]
    exact ⟨hcontent, .inr ⟨.inr rfl, hposition⟩⟩
  have hallocated : channelAfter habits start (calls ++ [.newDirectByteBuffer bytes]) =
      { channelAfter habits start calls with
        calls := (channelAfter habits start calls).calls + 1 } := by
    rw [channelAfter_snoc]
    exact ByteChannel.perform_allocate habits _
  rw [hbuffer]
  dsimp only
  obtain ⟨answer, hanswer, hread⟩ | ⟨m', calls', hread, hcontent, hposition⟩ :=
    callTransport_onChannel habits start J m
      (calls ++ [.newDirectByteBuffer bytes]) (.channelRead bytes)
  swap
  · rw [hread]
    rw [hallocated] at hcontent hposition
    exact ⟨hcontent, .inr ⟨.inr rfl, hposition⟩⟩
  obtain ⟨hcontent, hbytes⟩ := ByteChannel.perform_read hanswer
  have hafter := channelAfter_snoc habits start (calls ++ [.newDirectByteBuffer bytes])
    (.channelRead bytes)
  rw [hallocated] at hcontent hbytes hafter
  dsimp only [channelOp] at hcontent hbytes hafter
  rw [← hafter] at hcontent hbytes
  rw [hread]
  dsimp only
  obtain ⟨-, rfl, hposition⟩ | ⟨hmore, hvalue, hlength, hbytes, hposition⟩ := hbytes
  · rw [if_pos (by decide)]
    exact ⟨hcontent, .inr ⟨.inl rfl, hposition⟩⟩
  rw [hvalue, if_neg (by omega)]
  split
  · rename_i hzero
    have hempty : answer.bytes.length = 0 := Int.natCast_eq_zero.mp hzero
    refine ⟨hcontent, .inr ⟨.inr rfl, ?_⟩⟩
    rw [hposition, hempty, Nat.add_zero]
  · rename_i hsome
    refine ⟨hcontent, .inl ⟨answer.bytes.length, by omega, by omega, by omega, ?_, hposition⟩⟩
    rw [Int.toNat_natCast, ← hbytes]

end

variable (J : Jvm)

theorem Embedded.read_willing (h : Embedded habits start m calls calls')
    (hwilling : habits.Willing (channelAfter habits start calls).calls) (hnone : m.pending = none)
    {bytes : ℕ} (hpos : 0 < bytes) (hmax : bytes ≤ intMax) :
    let read := decodeChannelReadCallback (J.onChannel habits start) bytes m calls
    if (channelAfter habits start calls).content.length ≤
        (channelAfter habits start calls).position then
      read.1 = .endOfStream
    else ∃ count buffer, read.1 = .cont count buffer := by
  obtain ⟨hfailure, -⟩ := hwilling _ (Nat.le_refl _)
  obtain ⟨hfailure', hportion⟩ := hwilling _
    (Nat.le_add_right (channelAfter habits start calls).calls 1)
  have hallocate : ((channelAfter habits start calls).perform habits .allocate) =
      (.ok ⟨0, []⟩, { channelAfter habits start calls with
        calls := (channelAfter habits start calls).calls + 1 }) := by
    unfold ByteChannel.perform
    rw [hfailure]
  have hallocated : channelAfter habits start (calls ++ [.newDirectByteBuffer bytes]) =
      { channelAfter habits start calls with
        calls := (channelAfter habits start calls).calls + 1 } := by
    rw [channelAfter_snoc]
    exact congrArg Prod.snd hallocate
  have hready : ChannelReady habits
      (channelAfter habits start (calls ++ [.newDirectByteBuffer bytes])) m := by
    rw [hallocated]
    exact ⟨hnone, hfailure'⟩
  obtain ⟨answer, hanswer⟩ := ByteChannel.perform_read_ok bytes hready.2
  obtain ⟨-, hbytes⟩ := ByteChannel.perform_read hanswer
  rw [hallocated] at hbytes
  dsimp only at hbytes ⊢
  unfold decodeChannelReadCallback
  have hchecked : ¬ m.exceptionCheck = true := by simp [exceptionCheck, hnone]
  have hasked : ¬ (!m.context.source.seekableChannel || bytes == 0) = true := by
    simp [h.channel, Nat.pos_iff_ne_zero.mp hpos]
  have hfits : ¬ intMax < bytes := Nat.not_lt.mpr hmax
  rw [if_neg hchecked, if_neg hasked, if_neg hfits, callTransport_ready J ⟨hnone, hfailure⟩
    (.newDirectByteBuffer bytes) (congrArg Prod.fst hallocate)]
  dsimp only
  rw [callTransport_ready J hready (.channelRead bytes) hanswer]
  dsimp only
  obtain ⟨hend, rfl, -⟩ | ⟨hmore, hvalue, hlength, -, -⟩ := hbytes
  · rw [if_pos hend, if_pos (by decide)]
  · rw [if_neg (Nat.not_le.mpr hmore), hvalue, if_neg (by omega), if_neg (by omega)]
    exact ⟨_, _, rfl⟩

theorem Embedded.absoluteReads (h : Embedded habits start m calls calls') :
    AbsoluteReads J habits start m calls where
  read offset hoffset bytes := by
    have hread := decodeChannelReadCallback_onChannel habits start J m calls bytes
    rw [hoffset] at hread
    simpa only [Nat.add_assoc] using hread
  willing hwilling hnone _ hpos hmax := h.read_willing J hwilling hnone hpos hmax

end Bytes

end JFlac.Decode
