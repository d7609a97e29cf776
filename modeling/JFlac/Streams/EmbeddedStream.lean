import JFlac.Decode.Embedded
import JFlac.Encode.Embedded

/-!
# Embedded streams

A FLAC stream that starts at a position of the caller's channel behaves, in both directions, as if
it started at byte zero.
-/

namespace JFlac.Streams

/-- A decoder opened on a channel: its context has the channel and its position. -/
structure DecodesFrom (habits : ChannelHabits) (start : ByteChannel) (m : Decode.Machine) :
    Prop where
  base : m.context.source.channelBaseOffset = start.position
  channel : m.context.source.seekableChannel = true
  within : start.position ≤ start.content.length
  length : (start.content.length : ℤ) ≤ longMax
  limit : (habits.limit : ℤ) ≤ longMax

/-- An encoder opened on a channel: its context has the channel and its position. -/
structure EncodesFrom (habits : ChannelHabits) (start : ByteChannel)
    (context : Encode.EncodeContext) : Prop where
  base : context.channelBaseOffset = start.position
  channel : context.outputChannel = true
  position : (start.position : ℤ) ≤ longMax
  length : (start.content.length : ℤ) ≤ longMax
  limit : (habits.limit : ℤ) ≤ longMax

section

variable {habits : ChannelHabits} {start : ByteChannel}

theorem DecodesFrom.embedded {m : Decode.Machine} (h : DecodesFrom habits start m) :
    Decode.Embedded habits start m [] [] where
  base := h.base
  channel := h.channel
  embeds := start.embeds
  before := .refl start
  fits := ⟨h.length, Int.le_trans (Int.ofNat_le.mpr h.within) h.length⟩
  inRange _ := by simp

theorem EncodesFrom.embedded {context : Encode.EncodeContext}
    (h : EncodesFrom habits start context) (pending : Option Throwable) :
    Encode.Embedded habits start ⟨pending, []⟩ ⟨pending, []⟩ where
  pending := rfl
  embeds := start.embeds
  before := .refl start
  fits := ⟨h.length, h.position⟩
  inRange _ := by simp

end

/-- The callbacks on a channel, whatever is called before, simulate those on the channel of the bytes
from the captured position on: the same replies, the same exception, the same bytes and positions up
to the offset; the bytes before the offset stay, and the channel is never moved before it. What is
read at an offset are the bytes that stand there. -/
structure EmbeddedDecode (J : Decode.Jvm) (habits : ChannelHabits) (start : ByteChannel)
    (m : Decode.Machine) (callbacks : List Decode.TransportCallback) : Prop where
  simulates : Decode.SameStep habits start
    (Decode.runTransport (Decode.handleTransport (J.onChannel habits start)) callbacks m [])
    (Decode.runTransport (Decode.handleEmbedded
      (J.onChannel (habits.embedded start.position) start.embedded) start.position) callbacks
      (m.rebase 0) [])
  offsets : Decode.RelativeOffsets J habits start
    (Decode.runTransport (Decode.handleTransport (J.onChannel habits start)) callbacks m []).2.1
    (Decode.runTransport (Decode.handleTransport (J.onChannel habits start)) callbacks m []).2.2
  bytes : Decode.AbsoluteReads J habits start
    (Decode.runTransport (Decode.handleTransport (J.onChannel habits start)) callbacks m []).2.1
    (Decode.runTransport (Decode.handleTransport (J.onChannel habits start)) callbacks m []).2.2

/-- The same for the callbacks of the encoder, which also puts the bytes it writes at the offset. -/
structure EmbeddedEncode (habits : ChannelHabits) (start : ByteChannel)
    (context : Encode.EncodeContext) (pending : Option Throwable)
    (callbacks : List Encode.ChannelCallback) : Prop where
  simulates : Encode.SameStep habits start
    (Encode.runChannel (Encode.handleChannel (Encode.onChannel habits start) context) callbacks
      ⟨pending, []⟩)
    (Encode.runChannel (Encode.handleEmbedded
      (Encode.onChannel (habits.embedded start.position) start.embedded) context.rebase
      start.position) callbacks ⟨pending, []⟩)
  offsets : Encode.RelativeOffsets habits start context
    (Encode.runChannel (Encode.handleChannel (Encode.onChannel habits start) context) callbacks
      ⟨pending, []⟩).2
  bytes : Encode.AbsoluteBytes habits start context
    (Encode.runChannel (Encode.handleChannel (Encode.onChannel habits start) context) callbacks
      ⟨pending, []⟩).2

/-- An embedded stream behaves as if it started at byte zero. -/
theorem embeddedStream_startsAtZero (habits : ChannelHabits) (start : ByteChannel) :
    (∀ (J : Decode.Jvm) (m : Decode.Machine), DecodesFrom habits start m →
      ∀ callbacks, EmbeddedDecode J habits start m callbacks) ∧
    ∀ (context : Encode.EncodeContext), EncodesFrom habits start context →
      ∀ pending callbacks, EmbeddedEncode habits start context pending callbacks := by
  constructor
  · intro J m h callbacks
    have hrun := h.embedded.run J h.within h.limit callbacks
    exact ⟨hrun, hrun.embedded.relativeOffsets J h.within h.limit, hrun.embedded.absoluteReads J⟩
  · intro context h pending callbacks
    have hrun := (h.embedded pending).run h.limit h.base callbacks
    exact ⟨hrun, hrun.embedded.relativeOffsets h.limit h.channel h.base,
      Encode.absoluteBytes h.channel _⟩

/-- A channel that holds three bytes of the caller before a stream. -/
def taggedChannel : ByteChannel := ⟨[1, 2, 3, 0x66, 0x4c, 0x61, 0x43], 3, 0⟩

/-- It transfers one byte with each call and never throws. -/
def byteByByte : ChannelHabits where
  portions _ := 1
  failures _ := none
  gap _ := 0
  limit := 64
  tooLarge := .java 0

/-- A JVM in which nothing goes wrong. -/
def calmJvm : Decode.Jvm := ⟨fun _ _ => none, fun _ => false, fun _ _ => .ok ⟨0, []⟩⟩

/-- A decode opened on the channel. -/
def taggedDecode : Decode.Machine where
  context :=
    { Decode.DecodeContext.zero with
      source :=
        { inputStream := false, inputStreamIsGlobal := false, seekableChannel := true
          channelBaseOffset := 3 } }
  pending := none
  history := []

/-- The decoder reads the byte at offset one of the stream, which is the fifth of the channel. The
encoder writes two bytes there, in two portions, and leaves the three before the stream. -/
theorem embeddedStream_startsAtZero_tagged :
    EmbeddedDecode calmJvm byteByByte taggedChannel taggedDecode [.seek 1, .read 2, .tell] ∧
      (Decode.runTransport (Decode.handleTransport (calmJvm.onChannel byteByByte taggedChannel))
        [.seek 1, .read 2, .tell] taggedDecode []).1 =
          [⟨.seek 1, true⟩, ⟨.read 2, .cont 1 [0x4c]⟩, ⟨.tell, some 2⟩] ∧
    EmbeddedEncode byteByByte taggedChannel ⟨true, 3⟩ none [.seek 1, .write [9, 8]] ∧
      (Encode.channelAfter byteByByte taggedChannel (Encode.runChannel (Encode.handleChannel
        (Encode.onChannel byteByByte taggedChannel) ⟨true, 3⟩) [.seek 1, .write [9, 8]]
          ⟨none, []⟩).2.calls).content = [1, 2, 3, 0x66, 9, 8, 0x43] := by
  have hdecodes : DecodesFrom byteByByte taggedChannel taggedDecode :=
    ⟨rfl, rfl, by decide, by decide, by decide⟩
  have hencodes : EncodesFrom byteByByte taggedChannel ⟨true, 3⟩ :=
    ⟨rfl, rfl, by decide, by decide, by decide⟩
  obtain ⟨hdecode, hencode⟩ := embeddedStream_startsAtZero byteByByte taggedChannel
  exact ⟨hdecode calmJvm taggedDecode hdecodes _, rfl, hencode _ hencodes none _, by decide⟩

end JFlac.Streams
