import JFlac.Basic
import JFlac.Lib.Bytes

/-!
# Channels that hold a stream at an offset

A `SeekableByteChannel` of the caller, with all that it decides by itself: how many bytes a read or
write transfers, which calls throw, and what fills the gap when it is written behind its end. A
stream that starts at position `b` of a channel is the channel of the bytes from `b` on: the same
calls, with positions moved by `b`, do the same to both (`Embeds.perform`).
-/

namespace JFlac.Streams

/-! ## Overwriting -/

/-- The content after `bytes` were written at `position`; `gap` fills what was never written. -/
def overwrite (gap : ℕ → UInt8) (content : List UInt8) (position : ℕ) (bytes : List UInt8) :
    List UInt8 :=
  (List.range (max content.length (position + bytes.length))).map fun i =>
    if position ≤ i ∧ i < position + bytes.length then bytes.getD (i - position) 0
    else content.getD i (gap i)

theorem length_overwrite (gap : ℕ → UInt8) (content : List UInt8) (position : ℕ)
    (bytes : List UInt8) :
    (overwrite gap content position bytes).length =
      max content.length (position + bytes.length) := by
  rw [overwrite, List.length_map, List.length_range]

/-- Writing behind an offset is writing to the bytes from there on. -/
theorem drop_overwrite (gap : ℕ → UInt8) (content : List UInt8) (b position : ℕ)
    (bytes : List UInt8) :
    (overwrite gap content (b + position) bytes).drop b =
      overwrite (fun i => gap (b + i)) (content.drop b) position bytes := by
  refine List.ext_getElem ?_ fun i hi _ => ?_
  · rw [List.length_drop, length_overwrite, length_overwrite, List.length_drop]
    omega
  · simp only [overwrite, List.getElem_drop, List.getElem_map, List.getElem_range]
    by_cases hwritten : position ≤ i ∧ i < position + bytes.length
    · rw [if_pos hwritten, if_pos (by omega), Nat.add_sub_add_left]
    · rw [if_neg hwritten, if_neg (by omega), List.getD_eq_getElem?_getD,
        List.getD_eq_getElem?_getD, List.getElem?_drop]

/-- Writing behind an offset leaves the bytes before it. -/
theorem take_overwrite (gap : ℕ → UInt8) {content : List UInt8} {n position : ℕ}
    (bytes : List UInt8) (hn : n ≤ content.length) (hposition : n ≤ position) :
    (overwrite gap content position bytes).take n = content.take n := by
  refine List.ext_getElem ?_ fun i hi hi' => ?_
  · rw [List.length_take, List.length_take, length_overwrite]
    omega
  · rw [List.length_take] at hi'
    simp only [overwrite, List.getElem_take, List.getElem_map, List.getElem_range]
    rw [if_neg (by omega), List.getD_eq_getElem?_getD, List.getElem?_eq_getElem (by omega)]
    rfl

/-- These bytes stand at a position of the content, and all that was there outside is as before. A
write of no bytes does not make the content longer. -/
structure WrittenAt (position : ℕ) (bytes before after : List UInt8) : Prop where
  length : after.length =
    if bytes = [] then before.length else max before.length (position + bytes.length)
  written : ∀ i < bytes.length, after[position + i]? = bytes[i]?
  others : ∀ i < before.length, i < position ∨ position + bytes.length ≤ i → after[i]? = before[i]?

theorem WrittenAt.refl (position : ℕ) (content : List UInt8) :
    WrittenAt position [] content content :=
  ⟨(if_pos rfl).symm, fun _ hi => absurd hi (Nat.not_lt_zero _), fun _ _ _ => rfl⟩

theorem writtenAt_overwrite (gap : ℕ → UInt8) (content : List UInt8) (position : ℕ)
    {bytes : List UInt8} (hbytes : bytes ≠ []) :
    WrittenAt position bytes content (overwrite gap content position bytes) where
  length := by rw [length_overwrite, if_neg hbytes]
  written i hi := by
    have hrange : position + i < (overwrite gap content position bytes).length := by
      rw [length_overwrite]
      omega
    rw [List.getElem?_eq_getElem hrange, List.getElem?_eq_getElem hi]
    simp only [overwrite, List.getElem_map, List.getElem_range]
    rw [if_pos (by omega), Nat.add_sub_cancel_left, List.getD_eq_getElem?_getD,
      List.getElem?_eq_getElem hi, Option.getD_some]
  others i hi houtside := by
    have hrange : i < (overwrite gap content position bytes).length := by
      rw [length_overwrite]
      omega
    rw [List.getElem?_eq_getElem hrange, List.getElem?_eq_getElem hi]
    simp only [overwrite, List.getElem_map, List.getElem_range]
    rw [if_neg (by omega), List.getD_eq_getElem?_getD, List.getElem?_eq_getElem hi,
      Option.getD_some]

/-- Bytes written behind those written before. -/
theorem WrittenAt.append {position : ℕ} {xs ys a b c : List UInt8}
    (h : WrittenAt position xs a b) (h' : WrittenAt (position + xs.length) ys b c) :
    WrittenAt position (xs ++ ys) a c := by
  have hab := h.length
  have hbc := h'.length
  have hle : a.length ≤ b.length := by
    rw [hab]
    split <;> omega
  constructor
  case length =>
    by_cases hxs : xs = []
    · rw [if_pos hxs] at hab
      rw [hbc, hab, hxs, List.nil_append, List.length_nil, Nat.add_zero]
    rw [if_neg hxs] at hab
    rw [if_neg (by simp [hxs]), hbc, hab, List.length_append]
    by_cases hys : ys = []
    · rw [if_pos hys, hys, List.length_nil, Nat.add_zero]
    · rw [if_neg hys]
      omega
  case written =>
    intro i hi
    rw [List.length_append] at hi
    by_cases hfirst : i < xs.length
    · -- the second write is behind these bytes
      have hsome := h.written i hfirst
      have hrange : position + i < b.length := by
        rw [List.getElem?_eq_getElem hfirst] at hsome
        exact (List.getElem?_eq_some_iff.mp hsome).1
      rw [h'.others _ hrange (.inl (by omega)), hsome, List.getElem?_append_left hfirst]
    · have hsecond := h'.written (i - xs.length) (by omega)
      rw [List.getElem?_append_right (by omega), ← hsecond]
      congr 1
      omega
  case others =>
    intro i hi houtside
    rw [List.length_append] at houtside
    rw [h'.others i (by omega) (by omega), h.others i hi (by omega)]

/-! ## Channels -/

/-- What a channel decides by itself, by the number of calls made before. -/
structure ChannelHabits where
  /-- The largest number of bytes a read or write transfers. -/
  portions : ℕ → ℕ
  failures : ℕ → Option Throwable
  gap : ℕ → UInt8
  /-- The largest size. -/
  limit : ℕ
  /-- What is thrown instead of growing beyond it. -/
  tooLarge : Throwable

/-- From some call on the channel never throws and always transfers something. -/
def ChannelHabits.Willing (habits : ChannelHabits) (calls : ℕ) : Prop :=
  ∀ i, calls ≤ i → habits.failures i = none ∧ 0 < habits.portions i

theorem ChannelHabits.Willing.mono {habits : ChannelHabits} {m n : ℕ} (h : habits.Willing m)
    (hmn : m ≤ n) : habits.Willing n :=
  fun i hi => h i (Nat.le_trans hmn hi)

/-- The calls on a channel, with the allocation of the buffer a read or write goes through. -/
inductive ChannelOp where
  | allocate
  | read (capacity : ℕ)
  | write (bytes : List UInt8)
  | position
  | setPosition (target : ℤ)
  | size
  deriving DecidableEq, Repr

/-- What a call returns, and the bytes it has put into the buffer. -/
structure ChannelAnswer where
  value : ℤ
  bytes : List UInt8
  deriving DecidableEq, Repr

/-- A channel of the caller. -/
structure ByteChannel where
  content : List UInt8
  position : ℕ
  /-- How many calls were made. -/
  calls : ℕ
  deriving DecidableEq, Repr

namespace ByteChannel

/-- What `position(long)` throws for a negative position. -/
def negativePosition : Throwable := .illegalArgumentException ""

/-- One call. -/
def perform (habits : ChannelHabits) (c : ByteChannel) (op : ChannelOp) :
    Except Throwable ChannelAnswer × ByteChannel :=
  let called := { c with calls := c.calls + 1 }
  match habits.failures c.calls with
  | some exception => (.error exception, called)
  | none =>
    match op with
    | .allocate => (.ok ⟨0, []⟩, called)
    | .read capacity =>
      let bytes := (c.content.drop c.position).take (min (habits.portions c.calls) capacity)
      if c.content.drop c.position = [] then (.ok ⟨-1, []⟩, called)
      else (.ok ⟨bytes.length, bytes⟩, { called with position := c.position + bytes.length })
    | .write bytes =>
      let taken := bytes.take (habits.portions c.calls)
      if taken = [] then (.ok ⟨0, []⟩, called)
      else if habits.limit < c.position + taken.length then (.error habits.tooLarge, called)
      else
        (.ok ⟨taken.length, []⟩,
          { called with
            content := overwrite habits.gap c.content c.position taken
            position := c.position + taken.length })
    | .position => (.ok ⟨c.position, []⟩, called)
    | .setPosition target =>
      if target < 0 then (.error negativePosition, called)
      else (.ok ⟨0, []⟩, { called with position := target.toNat })
    | .size => (.ok ⟨c.content.length, []⟩, called)

/-- The channel after some calls. -/
def after (habits : ChannelHabits) (c : ByteChannel) (ops : List ChannelOp) : ByteChannel :=
  ops.foldl (fun c op => (c.perform habits op).2) c

/-- The channel of the bytes from the position on. -/
def embedded (c : ByteChannel) : ByteChannel :=
  { c with content := c.content.drop c.position, position := 0 }

theorem after_snoc (habits : ChannelHabits) (c : ByteChannel) (ops : List ChannelOp)
    (op : ChannelOp) :
    c.after habits (ops ++ [op]) = ((c.after habits ops).perform habits op).2 := by
  rw [after, List.foldl_append, List.foldl_cons, List.foldl_nil]
  rfl

theorem perform_position {habits : ChannelHabits} {c : ByteChannel}
    (h : habits.failures c.calls = none) :
    c.perform habits .position = (.ok ⟨c.position, []⟩, { c with calls := c.calls + 1 }) := by
  unfold ByteChannel.perform
  rw [h]

theorem perform_size {habits : ChannelHabits} {c : ByteChannel}
    (h : habits.failures c.calls = none) :
    c.perform habits .size = (.ok ⟨c.content.length, []⟩, { c with calls := c.calls + 1 }) := by
  unfold ByteChannel.perform
  rw [h]

theorem perform_setPosition {habits : ChannelHabits} {c : ByteChannel}
    (h : habits.failures c.calls = none) (target : ℕ) :
    c.perform habits (.setPosition target) =
      (.ok ⟨0, []⟩, { c with position := target, calls := c.calls + 1 }) := by
  unfold ByteChannel.perform
  rw [h]
  dsimp only
  rw [if_neg (by omega), Int.toNat_natCast]

/-- A call that throws leaves the bytes and the position. -/
theorem perform_error {habits : ChannelHabits} {c : ByteChannel} {op : ChannelOp}
    {exception : Throwable} (h : (c.perform habits op).1 = .error exception) :
    (c.perform habits op).2 = { c with calls := c.calls + 1 } := by
  unfold ByteChannel.perform at h ⊢
  cases hfailure : habits.failures c.calls with
  | some exception => rfl
  | none =>
    rw [hfailure] at h
    cases op with
    | allocate => rfl
    | read capacity =>
      dsimp only at h ⊢
      split at h
      · contradiction
      · contradiction
    | write bytes =>
      dsimp only at h ⊢
      split at h
      · contradiction
      rename_i hsome
      split at h
      · rename_i hlarge
        rw [if_neg hsome, if_pos hlarge]
      · contradiction
    | position => rfl
    | setPosition target =>
      dsimp only at h ⊢
      split at h
      · rename_i hneg
        rw [if_pos hneg]
      · contradiction
    | size => rfl

/-- Every call is counted. -/
theorem calls_perform (habits : ChannelHabits) (c : ByteChannel) (op : ChannelOp) :
    (c.perform habits op).2.calls = c.calls + 1 := by
  unfold ByteChannel.perform
  cases habits.failures c.calls with
  | some exception => rfl
  | none =>
    cases op <;> dsimp only
    case read =>
      split <;> rfl
    case write =>
      split
      · rfl
      · split <;> rfl
    case setPosition =>
      split <;> rfl

/-- An allocation leaves the bytes and the position. -/
theorem perform_allocate (habits : ChannelHabits) (c : ByteChannel) :
    (c.perform habits .allocate).2 = { c with calls := c.calls + 1 } := by
  unfold ByteChannel.perform
  split <;> rfl

/-- An allocation that does not throw is answered. -/
theorem perform_allocate_ok {habits : ChannelHabits} {c : ByteChannel}
    (hfailure : habits.failures c.calls = none) :
    ∃ answer, (c.perform habits .allocate).1 = .ok answer := by
  unfold ByteChannel.perform
  rw [hfailure]
  exact ⟨_, rfl⟩

/-- A read brings the bytes at the position and moves behind them; the end is reported when there
are none. -/
theorem perform_read {habits : ChannelHabits} {c : ByteChannel} {capacity : ℕ}
    {answer : ChannelAnswer} (h : (c.perform habits (.read capacity)).1 = .ok answer) :
    (c.perform habits (.read capacity)).2.content = c.content ∧
      (c.content.length ≤ c.position ∧ answer = ⟨-1, []⟩ ∧
          (c.perform habits (.read capacity)).2.position = c.position ∨
        c.position < c.content.length ∧ answer.value = answer.bytes.length ∧
          answer.bytes.length = min (min (habits.portions c.calls) capacity)
            (c.content.length - c.position) ∧
          answer.bytes = (c.content.drop c.position).take answer.bytes.length ∧
          (c.perform habits (.read capacity)).2.position = c.position + answer.bytes.length) := by
  unfold ByteChannel.perform at h ⊢
  cases hfailure : habits.failures c.calls with
  | some exception =>
    rw [hfailure] at h
    contradiction
  | none =>
    rw [hfailure] at h
    dsimp only at h ⊢
    by_cases hrest : c.content.drop c.position = []
    · rw [if_pos hrest] at h ⊢
      exact ⟨rfl, .inl ⟨List.drop_eq_nil_iff.mp hrest, (Except.ok.inj h).symm, rfl⟩⟩
    · rw [if_neg hrest] at h ⊢
      obtain rfl := Except.ok.inj h
      have hmore : c.position < c.content.length :=
        Nat.lt_of_not_le fun hle => hrest (List.drop_eq_nil_iff.mpr hle)
      refine ⟨rfl, .inr ⟨hmore, rfl, ?_, ?_, rfl⟩⟩
      · rw [List.length_take, List.length_drop]
      · rw [List.length_take, ← List.take_eq_take_min]

/-- A write puts some of its bytes at the position, from the first one on, and moves behind them. -/
theorem perform_write {habits : ChannelHabits} {c : ByteChannel} {bytes : List UInt8}
    {answer : ChannelAnswer} (h : (c.perform habits (.write bytes)).1 = .ok answer) :
    ∃ k ≤ bytes.length, answer = ⟨k, []⟩ ∧ k = min (habits.portions c.calls) bytes.length ∧
      WrittenAt c.position (bytes.take k) c.content (c.perform habits (.write bytes)).2.content ∧
      (c.perform habits (.write bytes)).2.position = c.position + k := by
  unfold ByteChannel.perform at h ⊢
  cases hfailure : habits.failures c.calls with
  | some exception =>
    rw [hfailure] at h
    contradiction
  | none =>
    rw [hfailure] at h
    dsimp only at h ⊢
    have hlength : (bytes.take (habits.portions c.calls)).length =
        min (habits.portions c.calls) bytes.length := List.length_take ..
    have htake : bytes.take (min (habits.portions c.calls) bytes.length) =
        bytes.take (habits.portions c.calls) := List.take_eq_take_min.symm
    refine ⟨min (habits.portions c.calls) bytes.length, Nat.min_le_right _ _, ?_, rfl, ?_⟩
    · split at h
      · rename_i hempty
        rw [hempty, List.length_nil] at hlength
        rw [← hlength]
        exact (Except.ok.inj h).symm
      split at h
      · contradiction
      · rw [← hlength]
        exact (Except.ok.inj h).symm
    rw [htake]
    split
    · rename_i hempty
      rw [hempty, List.length_nil] at hlength
      rw [hempty, ← hlength]
      exact ⟨.refl _ _, rfl⟩
    rename_i hsome
    split
    · rename_i hlarge
      rw [if_neg hsome, if_pos hlarge] at h
      contradiction
    · rw [← hlength]
      exact ⟨writtenAt_overwrite _ _ _ hsome, rfl⟩

/-- A willing channel with room takes a write. -/
theorem perform_write_ok {habits : ChannelHabits} {c : ByteChannel} (bytes : List UInt8)
    (hfailure : habits.failures c.calls = none) (hroom : c.position + bytes.length ≤ habits.limit) :
    ∃ answer, (c.perform habits (.write bytes)).1 = .ok answer := by
  unfold ByteChannel.perform
  rw [hfailure]
  dsimp only
  have hlength : (bytes.take (habits.portions c.calls)).length ≤ bytes.length := by
    rw [List.length_take]
    exact Nat.min_le_right _ _
  split
  · exact ⟨_, rfl⟩
  · rw [if_neg (by omega)]
    exact ⟨_, rfl⟩

/-- A read that does not throw is answered. -/
theorem perform_read_ok {habits : ChannelHabits} {c : ByteChannel} (capacity : ℕ)
    (hfailure : habits.failures c.calls = none) :
    ∃ answer, (c.perform habits (.read capacity)).1 = .ok answer := by
  unfold ByteChannel.perform
  rw [hfailure]
  dsimp only
  split
  · exact ⟨_, rfl⟩
  · exact ⟨_, rfl⟩

end ByteChannel

/-- The habits of the channel that starts at an offset. -/
def ChannelHabits.embedded (habits : ChannelHabits) (b : ℕ) : ChannelHabits :=
  { habits with gap := fun i => habits.gap (b + i), limit := habits.limit - b }

/-- A call with its position moved by an offset. -/
def ChannelOp.shift (b : ℕ) : ChannelOp → ChannelOp
  | .setPosition target => .setPosition (b + target)
  | op => op

/-- An answer with its position moved by an offset. -/
def ChannelAnswer.shift (b : ℕ) (op : ChannelOp) (answer : ChannelAnswer) : ChannelAnswer :=
  match op with
  | .position | .size => { answer with value := b + answer.value }
  | _ => answer

/-! ## The embedding -/

/-- A channel and the channel of its bytes from `b` on. -/
structure Embeds (b : ℕ) (c d : ByteChannel) : Prop where
  content : d.content = c.content.drop b
  position : c.position = b + d.position
  calls : d.calls = c.calls

theorem ByteChannel.embeds (c : ByteChannel) : Embeds c.position c c.embedded :=
  ⟨rfl, rfl, rfl⟩

namespace Embeds

variable {b : ℕ} {c d : ByteChannel}

/-- What is asked of the two channels: positions are not negative, and the size is asked for only
when it reaches the offset. -/
def Asks (b : ℕ) (c : ByteChannel) : ChannelOp → Prop
  | .setPosition target => 0 ≤ target
  | .size => b ≤ c.content.length
  | _ => True

/-- The same call gives the same answer, up to the offset, and leaves the same bytes. -/
theorem perform (h : Embeds b c d) (habits : ChannelHabits) {op : ChannelOp} (hop : Asks b c op) :
    (c.perform habits (op.shift b)).1 =
        (d.perform (habits.embedded b) op).1.map (ChannelAnswer.shift b op) ∧
      Embeds b (c.perform habits (op.shift b)).2 (d.perform (habits.embedded b) op).2 := by
  have hcalled : Embeds b { c with calls := c.calls + 1 } { d with calls := c.calls + 1 } :=
    ⟨h.content, h.position, rfl⟩
  have hrest : d.content.drop d.position = c.content.drop c.position := by
    rw [h.content, List.drop_drop, h.position]
  have hfailures : (habits.embedded b).failures = habits.failures := rfl
  have hportions : (habits.embedded b).portions = habits.portions := rfl
  have hlimit : (habits.embedded b).limit = habits.limit - b := rfl
  unfold ByteChannel.perform
  rw [h.calls, hfailures, hportions]
  cases habits.failures c.calls with
  | some exception => exact ⟨rfl, hcalled⟩
  | none =>
    cases op with
    | allocate => exact ⟨rfl, hcalled⟩
    | read capacity =>
      dsimp only [ChannelOp.shift]
      rw [hrest]
      split
      · exact ⟨rfl, hcalled⟩
      · refine ⟨rfl, h.content, ?_, rfl⟩
        dsimp only
        rw [h.position, Nat.add_assoc]
    | write bytes =>
      dsimp only [ChannelOp.shift]
      generalize bytes.take (habits.portions c.calls) = taken
      by_cases hempty : taken = []
      · rw [if_pos hempty, if_pos hempty]
        exact ⟨rfl, hcalled⟩
      · have hlength : 0 < taken.length := List.length_pos_iff.mpr hempty
        have hposition := h.position
        rw [if_neg hempty, if_neg hempty]
        by_cases hlarge : habits.limit < c.position + taken.length
        · rw [if_pos hlarge, if_pos (by omega)]
          exact ⟨rfl, hcalled⟩
        · rw [if_neg hlarge, if_neg (by omega)]
          refine ⟨rfl, ?_, ?_, rfl⟩
          · dsimp only [ChannelHabits.embedded]
            rw [h.position, drop_overwrite, h.content]
          · dsimp only
            rw [h.position, Nat.add_assoc]
    | position =>
      refine ⟨?_, hcalled⟩
      dsimp only [ChannelOp.shift, Except.map, ChannelAnswer.shift]
      rw [h.position, Int.natCast_add]
    | setPosition target =>
      have hnonneg : 0 ≤ target := hop
      dsimp only [ChannelOp.shift]
      rw [if_neg (by omega), if_neg (by omega)]
      refine ⟨rfl, h.content, ?_, rfl⟩
      dsimp only
      omega
    | size =>
      have hsize : b ≤ c.content.length := hop
      refine ⟨?_, hcalled⟩
      dsimp only [ChannelOp.shift, Except.map, ChannelAnswer.shift]
      rw [h.content, List.length_drop, ← Int.natCast_add, Nat.add_sub_cancel' hsize]

end Embeds

/-! ## What stays before the offset -/

namespace ByteChannel

variable {habits : ChannelHabits} {c : ByteChannel}

/-- Calls that stay behind an offset leave the bytes before it, and never make the channel smaller. -/
structure KeepsBefore (b : ℕ) (start c : ByteChannel) : Prop where
  position : b ≤ c.position
  length : start.content.length ≤ c.content.length
  before : c.content.take (min b start.content.length) =
    start.content.take (min b start.content.length)

theorem KeepsBefore.refl (c : ByteChannel) : KeepsBefore c.position c c :=
  ⟨Nat.le_refl _, Nat.le_refl _, rfl⟩

/-- A position behind the offset is one to which the channel may be moved. -/
def StaysBehind (b : ℕ) : ChannelOp → Prop
  | .setPosition target => (b : ℤ) ≤ target
  | _ => True

theorem KeepsBefore.perform {b : ℕ} {start : ByteChannel} (h : KeepsBefore b start c)
    {op : ChannelOp} (hop : StaysBehind b op) : KeepsBefore b start (c.perform habits op).2 := by
  have hcalled : KeepsBefore b start { c with calls := c.calls + 1 } :=
    ⟨h.position, h.length, h.before⟩
  unfold ByteChannel.perform
  cases habits.failures c.calls with
  | some exception => exact hcalled
  | none =>
    cases op with
    | allocate => exact hcalled
    | read capacity =>
      dsimp only
      split
      · exact hcalled
      · exact ⟨Nat.le_add_right_of_le h.position, h.length, h.before⟩
    | write bytes =>
      dsimp only
      split
      · exact hcalled
      split
      · exact hcalled
      · refine ⟨Nat.le_add_right_of_le h.position, ?_, ?_⟩
        · rw [length_overwrite]
          exact Nat.le_trans h.length (Nat.le_max_left _ _)
        · have hlength := h.length
          have hposition := h.position
          rw [take_overwrite _ _ (by omega) (by omega), h.before]
    | position => exact hcalled
    | setPosition target =>
      have hbehind : (b : ℤ) ≤ target := hop
      dsimp only
      split
      · exact hcalled
      · refine ⟨?_, h.length, h.before⟩
        dsimp only
        omega
    | size => exact hcalled

/-- A channel whose size and position fit a `long`. -/
structure FitsLong (c : ByteChannel) : Prop where
  length : (c.content.length : ℤ) ≤ longMax
  position : (c.position : ℤ) ≤ longMax

theorem FitsLong.perform (h : FitsLong c) (hlimit : (habits.limit : ℤ) ≤ longMax) {op : ChannelOp}
    (hop : ∀ target, op = .setPosition target → target ≤ longMax) :
    FitsLong (c.perform habits op).2 := by
  have hcalled : FitsLong { c with calls := c.calls + 1 } := ⟨h.length, h.position⟩
  unfold ByteChannel.perform
  cases habits.failures c.calls with
  | some exception => exact hcalled
  | none =>
    cases op with
    | allocate => exact hcalled
    | read capacity =>
      dsimp only
      split
      · exact hcalled
      · rename_i hrest
        refine ⟨h.length, ?_⟩
        have hlength := h.length
        have hpositive : 0 < (c.content.drop c.position).length := List.length_pos_iff.mpr hrest
        rw [List.length_drop] at hpositive
        dsimp only
        rw [List.length_take, List.length_drop]
        omega
    | write bytes =>
      dsimp only
      split
      · exact hcalled
      split
      · exact hcalled
      · have hlength := h.length
        constructor
        · dsimp only
          rw [length_overwrite]
          omega
        · dsimp only
          omega
    | position => exact hcalled
    | setPosition target =>
      have htarget := hop target rfl
      dsimp only
      split
      · exact hcalled
      · refine ⟨h.length, ?_⟩
        dsimp only
        omega
    | size => exact hcalled

end ByteChannel

end JFlac.Streams
