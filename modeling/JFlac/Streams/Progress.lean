import JFlac.Encode.Transport
import JFlac.Sound.PcmReader
import JFlac.Streams.Inspection

/-!
# Loops over sources and sinks that may not move

A caller's object may answer a positive request with nothing, again and again. The wrapper has five
loops of its own over such objects. Four of them treat an answer of no bytes as an error, so each
round either ends the loop or brings it closer to what it wants. `readMagic` asks again: it runs for
ever exactly when the stream stalls before its fourth byte (`Stalls`).
-/

namespace JFlac.Streams

open Lib Sound

/-- The answer cut to the size of a request: a read never brings more than was asked for. -/
def clip {ε : Type} (size : ℕ) : ReadAnswer ε Byte → ReadAnswer ε Byte
  | .data bytes => .data (bytes.take size)
  | answer => answer

/-- The object whose `i`-th read is answered by `answers i`. -/
def scheduled (answers : ℕ → ReadAnswer InspectionException Byte) :
    Reader InspectionException Byte ℕ :=
  fun i request => (clip request.size (answers i), i + 1)

/-! ## The loop that asks again -/

section Magic

variable (answers : ℕ → ReadAnswer InspectionException Byte)

/-- The number of bytes the first reads bring. -/
def brought (k : ℕ) : ℕ := ((List.range k).map fun i => (answers i).elements.length).sum

/-- From some read on the stream brings nothing and never says so, and the reads before brought
fewer bytes than the magic has. -/
def Stalls : Prop :=
  ∃ k, (∀ i < k, ∃ bytes, answers i = .data bytes) ∧ brought answers k < magicSize ∧
    ∀ i, k ≤ i → answers i = .data []

theorem brought_succ (k : ℕ) :
    brought answers (k + 1) = brought answers k + (answers k).elements.length := by
  simp [brought, List.range_succ]

/-- The loop without a stall test. -/
abbrev askAgain (rounds : ℕ) (got : List Byte) (i : ℕ) :
    Option (Except InspectionException (List Byte)) :=
  (collect none (scheduled answers) magicSize rounds got i).1

theorem askAgain_data {rounds i : ℕ} {got bytes : List Byte} (hgot : got.length < magicSize)
    (hanswer : answers i = .data bytes) :
    askAgain answers (rounds + 1) got i =
      askAgain answers rounds (got ++ bytes.take (magicSize - got.length)) (i + 1) := by
  have hread : (scheduled answers i (.upTo (magicSize - got.length))).1 =
      .data (bytes.take (magicSize - got.length)) := by
    rw [scheduled, hanswer]
    rfl
  rw [askAgain, collect_data none rounds hgot (.inr rfl) hread]
  rfl

/-- More rounds do not change a result. -/
theorem askAgain_mono {rounds i : ℕ} {got : List Byte} (h : askAgain answers rounds got i ≠ none) :
    askAgain answers (rounds + 1) got i = askAgain answers rounds got i := by
  induction rounds generalizing got i with
  | zero => exact absurd rfl h
  | succ rounds ih =>
    by_cases hgot : got.length < magicSize
    swap
    · rw [askAgain, askAgain, collect_full none _ _ (by omega), collect_full none _ _ (by omega)]
    cases hanswer : answers i with
    | ended =>
      have hread : (scheduled answers i (.upTo (magicSize - got.length))).1 = .ended := by
        rw [scheduled, hanswer]
        rfl
      rw [askAgain, askAgain, collect_ended none _ hgot hread, collect_ended none _ hgot hread]
    | raised e =>
      have hread : (scheduled answers i (.upTo (magicSize - got.length))).1 = .raised e := by
        rw [scheduled, hanswer]
        rfl
      rw [askAgain, askAgain, collect_raised none _ hgot hread, collect_raised none _ hgot hread]
    | data bytes =>
      rw [askAgain_data answers hgot hanswer] at h ⊢
      rw [askAgain_data answers hgot hanswer]
      exact ih h

/-- A stream that brings nothing from here on keeps the loop running. -/
theorem askAgain_stalled {rounds i : ℕ} {got : List Byte} (hgot : got.length < magicSize)
    (h : ∀ j, i ≤ j → answers j = .data []) : askAgain answers rounds got i = none := by
  induction rounds generalizing i with
  | zero => rfl
  | succ rounds ih =>
    rw [askAgain_data answers hgot (h i (Nat.le_refl i)), List.take_nil, List.append_nil]
    exact ih fun j hj => h j (by omega)

/-- While the reads bring bytes, and too few, the loop has what they brought. -/
theorem askAgain_before (rounds : ℕ) {k : ℕ} (hdata : ∀ i < k, ∃ bytes, answers i = .data bytes)
    (hbrought : brought answers k < magicSize) :
    ∃ got : List Byte, got.length = brought answers k ∧
      askAgain answers (rounds + k) [] 0 = askAgain answers rounds got k := by
  induction k generalizing rounds with
  | zero => exact ⟨[], rfl, rfl⟩
  | succ k ih =>
    have hsucc := brought_succ answers k
    obtain ⟨got, hgot, heq⟩ := ih (rounds + 1) (fun i hi => hdata i (by omega))
      (by omega)
    obtain ⟨bytes, hbytes⟩ := hdata k (Nat.lt_succ_self k)
    rw [hbytes, elements_data] at hsucc
    have hall : bytes.take (magicSize - got.length) = bytes :=
      List.take_of_length_le (by omega)
    refine ⟨got ++ bytes, by rw [List.length_append]; omega, ?_⟩
    rw [show rounds + (k + 1) = rounds + 1 + k by omega, heq,
      askAgain_data answers (by omega) hbytes, hall]

/-- A loop that never ends has only seen bytes, and too few. -/
theorem data_of_askAgain_none (h : ∀ rounds, askAgain answers rounds [] 0 = none) (k : ℕ) :
    (∀ i < k, ∃ bytes, answers i = .data bytes) ∧ brought answers k < magicSize := by
  induction k with
  | zero => exact ⟨nofun, Nat.succ_pos 3⟩
  | succ k ih =>
    obtain ⟨hdata, hbrought⟩ := ih
    obtain ⟨got, hgot, heq⟩ := askAgain_before answers 2 hdata hbrought
    have hlt : got.length < magicSize := by omega
    rw [h] at heq
    cases hanswer : answers k with
    | ended =>
      have hread : (scheduled answers k (.upTo (magicSize - got.length))).1 = .ended := by
        rw [scheduled, hanswer]
        rfl
      rw [askAgain, collect_ended none _ hlt hread] at heq
      cases heq
    | raised e =>
      have hread : (scheduled answers k (.upTo (magicSize - got.length))).1 = .raised e := by
        rw [scheduled, hanswer]
        rfl
      rw [askAgain, collect_raised none _ hlt hread] at heq
      cases heq
    | data bytes =>
      have hsucc := brought_succ answers k
      rw [hanswer, elements_data] at hsucc
      rw [askAgain_data answers hlt hanswer] at heq
      have hshort : bytes.length < magicSize - got.length := by
        by_contra hlong
        have hfull : magicSize ≤ (got ++ bytes.take (magicSize - got.length)).length := by
          rw [List.length_append, List.length_take]
          omega
        rw [askAgain, collect_full none _ _ hfull] at heq
        cases heq
      refine ⟨fun i hi => ?_, by omega⟩
      rcases Nat.lt_succ_iff_lt_or_eq.mp hi with hi | rfl
      · exact hdata i hi
      · exact ⟨bytes, hanswer⟩

/-- Bytes that stay few are eventually all there: from some read on nothing comes. -/
theorem stalls_of_data (h : ∀ k, (∀ i < k, ∃ bytes, answers i = .data bytes) ∧
    brought answers k < magicSize) : Stalls answers := by
  -- the largest number ever brought is reached at some read, after which none brings anything
  obtain ⟨k, hk⟩ : ∃ k, ∀ j, brought answers j ≤ brought answers k := by
    by_contra hnone
    push Not at hnone
    have hgrows : ∀ n, ∃ k, n ≤ brought answers k := by
      intro n
      induction n with
      | zero => exact ⟨0, Nat.zero_le _⟩
      | succ n ih =>
        obtain ⟨k, hk⟩ := ih
        obtain ⟨j, hj⟩ := hnone k
        exact ⟨j, by omega⟩
    obtain ⟨k, hk⟩ := hgrows magicSize
    exact absurd (h k).2 (by omega)
  refine ⟨k, (h k).1, (h k).2, fun i hi => ?_⟩
  obtain ⟨bytes, hbytes⟩ := (h (i + 1)).1 i (Nat.lt_succ_self i)
  have hmono : brought answers k ≤ brought answers i := by
    obtain ⟨d, rfl⟩ := Nat.exists_eq_add_of_le hi
    clear hi hbytes
    induction d with
    | zero => exact Nat.le_refl _
    | succ d ih =>
      have hsucc := brought_succ answers (k + d)
      rw [← Nat.add_assoc]
      omega
  have hsucc := brought_succ answers i
  have hmax := hk (i + 1)
  rw [hbytes, elements_data] at hsucc
  rw [hbytes, List.length_eq_zero_iff.mp (show bytes.length = 0 by omega)]

/-- `readMagic` ends exactly when the stream does not stall. -/
theorem readMagic_ends_iff :
    (∃ rounds, (readMagic (scheduled answers) rounds 0).1 ≠ none) ↔ ¬ Stalls answers := by
  constructor
  · rintro ⟨rounds, hends⟩ ⟨k, hdata, hbrought, hstalled⟩
    obtain ⟨got, hgot, heq⟩ := askAgain_before answers rounds hdata hbrought
    have hnone : askAgain answers (rounds + k) [] 0 = none := by
      rw [heq]
      exact askAgain_stalled answers (by omega) hstalled
    have hkeeps : ∀ d, askAgain answers (rounds + d) [] 0 ≠ none := by
      intro d
      induction d with
      | zero => exact hends
      | succ d ih =>
        rw [← Nat.add_assoc, askAgain_mono answers ih]
        exact ih
    exact hkeeps k hnone
  · intro hstalls
    by_contra hnever
    push Not at hnever
    exact hstalls (stalls_of_data answers (data_of_askAgain_none answers hnever))

end Magic

/-- Through an empty push-back buffer the loop sees what the stream brings. -/
theorem collect_pushback {σ : Type} (read : Reader InspectionException Byte σ) (rounds : ℕ)
    (got : List Byte) (s : σ) :
    (collect none (PushbackInputStream.read read) magicSize rounds got ⟨[], s⟩).1 =
      (collect none read magicSize rounds got s).1 := by
  induction rounds generalizing got s with
  | zero => rfl
  | succ rounds ih =>
    by_cases hgot : got.length < magicSize
    swap
    · rw [collect_full none _ _ (by omega), collect_full none _ _ (by omega)]
    have hpushback : PushbackInputStream.read read ⟨[], s⟩ (.upTo (magicSize - got.length)) =
        ((read s (.upTo (magicSize - got.length))).1,
          ⟨[], (read s (.upTo (magicSize - got.length))).2⟩) := by
      rw [PushbackInputStream.read, readPrefixed,
        if_neg (by rw [List.length_nil]; omega), List.length_nil, Nat.sub_zero]
      dsimp only
      cases (read s (.upTo (magicSize - got.length))).1 with
      | ended => rfl
      | raised e => rfl
      | data more => rfl
    cases hanswer : (read s (.upTo (magicSize - got.length))).1 with
    | ended =>
      rw [collect_ended none rounds hgot hanswer,
        collect_ended none rounds hgot (by rw [hpushback]; exact hanswer)]
    | raised e =>
      rw [collect_raised none rounds hgot hanswer,
        collect_raised none rounds hgot (by rw [hpushback]; exact hanswer)]
    | data bytes =>
      rw [collect_data none rounds hgot (.inr rfl) hanswer,
        collect_data none rounds hgot (.inr rfl) (by rw [hpushback]; exact hanswer), hpushback]
      exact ih _ _

/-- The inspection of a stream without mark support ends when its loop does. -/
theorem inspectUnmarkedStream_ends_iff {σ : Type} (read : Reader InspectionException Byte σ)
    (rounds : ℕ) (s : σ) :
    (inspectUnmarkedStream read rounds s).1 ≠ none ↔ (readMagic read rounds s).1 ≠ none := by
  have hloop := collect_pushback read rounds [] s
  change (readMagic (PushbackInputStream.read read) rounds ⟨[], s⟩).1 =
    (readMagic read rounds s).1 at hloop
  rw [← hloop, inspectUnmarkedStream]
  generalize readMagic (PushbackInputStream.read read) rounds ⟨[], s⟩ = result
  obtain ⟨outcome, pushback⟩ := result
  rcases outcome with _ | e | magic
  · exact ⟨fun h => absurd rfl h, fun h => absurd rfl h⟩
  · exact ⟨fun _ => nofun, fun _ => nofun⟩
  · refine ⟨fun _ => nofun, fun _ => ?_⟩
    dsimp only
    split
    · split <;> exact nofun
    · exact nofun

/-! ## The loops with a stall test -/

/-- The partial-write loop of the channel encoder makes at most as many calls as it has bytes. -/
theorem writeLoop_ends (C : Encode.ChannelObject) (buffer : List UInt8) {rounds writtenTotal : ℕ}
    (s : Encode.State) (hrounds : buffer.length - writtenTotal < rounds) :
    (Encode.writeLoop C buffer rounds writtenTotal s).1 ≠ none := by
  induction rounds generalizing writtenTotal s with
  | zero => omega
  | succ rounds ih =>
    rw [Encode.writeLoop]
    by_cases hmore : writtenTotal < buffer.length
    swap
    · rw [if_neg hmore]
      exact nofun
    rw [if_pos hmore]
    split
    · exact nofun
    · rename_i written s' _
      by_cases hzero : written.value ≤ 0
      · rw [if_pos hzero]
        exact nofun
      · rw [if_neg hzero]
        refine ih s' ?_
        have hpositive : 0 < written.value.toNat := by omega
        omega

theorem encodeChannelWriteCallback_ends (C : Encode.ChannelObject)
    (context : Encode.EncodeContext) (buffer : List UInt8) {rounds : ℕ} (s : Encode.State)
    (hrounds : buffer.length < rounds) :
    (Encode.encodeChannelWriteCallback C context rounds buffer s).1 ≠ none := by
  unfold Encode.encodeChannelWriteCallback
  split
  · exact nofun
  split
  · exact nofun
  split
  · exact nofun
  split
  · exact nofun
  · exact writeLoop_ends C buffer _ (by omega)

/-- A stream that counts the reads made of it. -/
def counted {σ : Type} (read : σ → ℕ → StreamRead × σ) : σ × ℕ → ℕ → StreamRead × (σ × ℕ) :=
  fun s n => ((read s.1 n).1, (read s.1 n).2, s.2 + 1)

/-- `readBytesForFrames` makes at most as many reads as it wants bytes. -/
theorem readBytesForFrames_reads_le {σ : Type} (read : σ → ℕ → StreamRead × σ) (bytesWanted : ℕ)
    (frameBuffer : List Byte) (input : σ) (reads : ℕ) :
    (readBytesForFrames (counted read) bytesWanted frameBuffer (input, reads)).2.2 ≤
      reads + (bytesWanted - frameBuffer.length) := by
  obtain ⟨room, hroom⟩ : ∃ room, bytesWanted - frameBuffer.length = room := ⟨_, rfl⟩
  induction room using Nat.strong_induction_on generalizing frameBuffer input reads with
  | _ room ih =>
    rw [readBytesForFrames]
    by_cases hfull : frameBuffer.length < bytesWanted
    swap
    · rw [if_neg hfull]
      exact Nat.le_add_right _ _
    rw [if_pos hfull]
    have hcounted : counted read (input, reads) (bytesWanted - frameBuffer.length) =
        ((read input (bytesWanted - frameBuffer.length)).1,
          (read input (bytesWanted - frameBuffer.length)).2, reads + 1) := rfl
    generalize read input (bytesWanted - frameBuffer.length) = answer at hcounted
    obtain ⟨answer, input'⟩ := answer
    rw [hcounted]
    cases answer with
    | ended =>
      dsimp only
      omega
    | raised e =>
      dsimp only
      omega
    | data bytes =>
      cases bytes with
      | nil =>
        dsimp only
        omega
      | cons b bytes =>
        have hgrown : (frameBuffer ++ b :: bytes).length =
            frameBuffer.length + (bytes.length + 1) := by
          rw [List.length_append, List.length_cons]
        have hrest := ih (bytesWanted - (frameBuffer ++ b :: bytes).length) (by omega)
          (frameBuffer ++ b :: bytes) input' (reads + 1) rfl
        dsimp only
        omega

/-! ## The loop over a pull session -/

section Pull

/-- What the copy loop relies on: its position is inside the buffer, and a frame has bytes. -/
structure Flowing (s : FlacPcmInputStream) : Prop where
  position : s.bytePosition ≤ s.byteLimit
  channels : 0 < s.channels
  bytesPerSample : 0 < s.bytesPerSample

/-- The stream went on, after at most so many answers of the session. -/
structure Advances (s s' : FlacPcmInputStream) (answers : ℕ) : Prop where
  flowing : Flowing s'
  session : ∃ k ≤ answers, s'.session = s.session.drop k

theorem Advances.refl {s : FlacPcmInputStream} (h : Flowing s) (answers : ℕ) :
    Advances s s answers := ⟨h, 0, Nat.zero_le _, rfl⟩

theorem Advances.trans {s s' s'' : FlacPcmInputStream} {m n : ℕ} (h : Advances s s' m)
    (h' : Advances s' s'' n) : Advances s s'' (m + n) := by
  obtain ⟨k, hk, hsession⟩ := h.session
  obtain ⟨k', hk', hsession'⟩ := h'.session
  exact ⟨h'.flowing, k + k', by omega, by rw [hsession', hsession, List.drop_drop]⟩

theorem Advances.mono {s s' : FlacPcmInputStream} {m n : ℕ} (h : Advances s s' m) (hmn : m ≤ n) :
    Advances s s' n := by
  obtain ⟨k, hk, hsession⟩ := h.session
  exact ⟨h.flowing, k, by omega, hsession⟩

theorem readInterleaved_advances {s : FlacPcmInputStream} (h : Flowing s) :
    Advances s s.readInterleaved.2 1 := by
  cases hsession : s.session with
  | nil =>
    rw [FlacPcmInputStream.readInterleaved, hsession]
    exact .refl h 1
  | cons answer rest =>
    have hone : ∀ buffer : List Sample, Advances s
        { s with session := rest, sampleBuffer := buffer } 1 := fun buffer =>
      ⟨⟨h.position, h.channels, h.bytesPerSample⟩, 1, Nat.le_refl 1, by rw [hsession]; rfl⟩
    rw [FlacPcmInputStream.readInterleaved, hsession]
    cases answer with
    | frames frames samples => exact hone _
    | endOfStream => exact hone s.sampleBuffer
    | failed => exact hone s.sampleBuffer

/-- Refilling takes at most one answer; when it succeeds, there are bytes to copy. -/
theorem fillByteBuffer_advances {s : FlacPcmInputStream} (h : Flowing s) :
    Advances s s.fillByteBuffer.2 1 ∧
      (s.fillByteBuffer.1 = .ok true →
        s.fillByteBuffer.2.bytePosition < s.fillByteBuffer.2.byteLimit) := by
  have hread := readInterleaved_advances h
  unfold FlacPcmInputStream.fillByteBuffer
  by_cases heof : s.eof = true
  · rw [if_pos heof]
    exact ⟨.refl h 1, nofun⟩
  rw [if_neg heof]
  generalize s.readInterleaved = answer at hread
  obtain ⟨answer, s'⟩ := answer
  dsimp only at hread
  obtain ⟨k, hk, hsession⟩ := hread.session
  cases answer with
  | failed => exact ⟨hread, nofun⟩
  | endOfStream =>
    exact ⟨⟨⟨hread.flowing.position, hread.flowing.channels, hread.flowing.bytesPerSample⟩, k, hk,
      hsession⟩, nofun⟩
  | frames frames samples =>
    cases frames with
    | zero => exact ⟨hread, nofun⟩
    | succ frames =>
      have hpositive : 0 < (frames + 1) * s'.channels * s'.bytesPerSample :=
        Nat.mul_pos (Nat.mul_pos (Nat.succ_pos frames) hread.flowing.channels)
          hread.flowing.bytesPerSample
      exact ⟨⟨⟨Nat.zero_le _, hread.flowing.channels, hread.flowing.bytesPerSample⟩, k, hk,
        hsession⟩, fun _ => hpositive⟩

/-- The copy loop ends, with at most one answer for each byte it still wants. -/
theorem readLoop_ends (offset : ℕ) {length rounds : ℕ} {s : FlacPcmInputStream}
    (h : Flowing s) (buffer : List Byte) {copied : ℕ} (hrounds : length - copied < rounds) :
    (s.readLoop offset length rounds buffer copied).1 ≠ none ∧
      Advances s (s.readLoop offset length rounds buffer copied).2 (length - copied) := by
  induction rounds generalizing s buffer copied with
  | zero => omega
  | succ rounds ih =>
    rw [FlacPcmInputStream.readLoop]
    by_cases hmore : copied < length
    swap
    · rw [if_neg hmore]
      exact ⟨by simp, .refl h _⟩
    rw [if_pos hmore]
    have hfill : Advances s (if s.bytePosition = s.byteLimit then s.fillByteBuffer
        else (.ok true, s)).2 1 ∧
        ((if s.bytePosition = s.byteLimit then s.fillByteBuffer else (.ok true, s)).1 = .ok true →
          (if s.bytePosition = s.byteLimit then s.fillByteBuffer
            else (.ok true, s)).2.bytePosition <
          (if s.bytePosition = s.byteLimit then s.fillByteBuffer else (.ok true, s)).2.byteLimit) := by
      split
      · exact fillByteBuffer_advances h
      · rename_i hposition
        exact ⟨.refl h 1, fun _ => Nat.lt_of_le_of_ne h.position hposition⟩
    generalize (if s.bytePosition = s.byteLimit then s.fillByteBuffer else (.ok true, s)) = filled
      at hfill
    obtain ⟨result, s'⟩ := filled
    obtain ⟨hadvances, hbytes⟩ := hfill
    dsimp only at hadvances hbytes
    rcases result with e | more
    · exact ⟨by simp, hadvances.mono (by omega)⟩
    cases more with
    | false => exact ⟨by simp, hadvances.mono (by omega)⟩
    | true =>
      have hbytes := hbytes rfl
      dsimp only
      have hcopy : 1 ≤ min (length - copied) (s'.byteLimit - s'.bytePosition) := by omega
      have hle := Nat.min_le_right (length - copied) (s'.byteLimit - s'.bytePosition)
      generalize min (length - copied) (s'.byteLimit - s'.bytePosition) = n at hcopy hle
      have hflowing : Flowing { s' with bytePosition := s'.bytePosition + n } :=
        ⟨by show s'.bytePosition + n ≤ s'.byteLimit; omega, hadvances.flowing.channels,
          hadvances.flowing.bytesPerSample⟩
      have hmoved : Advances s { s' with bytePosition := s'.bytePosition + n } 1 :=
        ⟨hflowing, hadvances.session⟩
      obtain ⟨hends, hrest⟩ := ih hflowing
        (arraycopy s'.byteBuffer s'.bytePosition buffer (offset + copied) n)
        (show length - (copied + n) < rounds by omega)
      exact ⟨hends, (hmoved.trans hrest).mono (by omega)⟩

theorem readBuffer_ends {s : FlacPcmInputStream} (h : Flowing s) (buffer : List Byte)
    (offset length : ℤ) :
    (s.readBuffer buffer offset length).1 ≠ none ∧
      Advances s (s.readBuffer buffer offset length).2
        (if offset < 0 ∨ length < 0 ∨ (buffer.length : ℤ) < offset + length then 0
          else length.toNat) := by
  unfold FlacPcmInputStream.readBuffer
  split
  · exact ⟨nofun, .refl h _⟩
  split
  · exact ⟨nofun, .refl h _⟩
  split
  · exact ⟨nofun, .refl h _⟩
  have hloop := readLoop_ends offset.toNat h buffer (Nat.lt_succ_self (length.toNat - 0))
  rw [Nat.sub_zero] at hloop
  obtain ⟨hends, hadvances⟩ := hloop
  generalize s.readLoop offset.toNat length.toNat (length.toNat + 1) buffer 0 = result
    at hends hadvances
  obtain ⟨outcome, s'⟩ := result
  rcases outcome with _ | e | ⟨copied, buffer⟩
  · exact absurd rfl hends
  · exact ⟨nofun, hadvances⟩
  · exact ⟨nofun, hadvances⟩

/-- Every read of the stream ends. -/
theorem perform_ends {s : FlacPcmInputStream} (h : Flowing s) (call : FlacPcmInputStream.ReadCall) :
    (s.perform call).1 ≠ none ∧ Advances s (s.perform call).2 call.requested := by
  cases call with
  | byte =>
    obtain ⟨hends, hadvances⟩ := readBuffer_ends h [0] 0 1
    have hone : (if (0 : ℤ) < 0 ∨ (1 : ℤ) < 0 ∨ (([0] : List Byte).length : ℤ) < 0 + 1 then 0
        else (1 : ℤ).toNat) = 1 := by decide
    rw [hone] at hadvances
    unfold FlacPcmInputStream.perform FlacPcmInputStream.readByte
    generalize s.readBuffer [0] 0 1 = result at hends hadvances
    obtain ⟨outcome, s'⟩ := result
    rcases outcome with _ | e | ⟨read, oneByte⟩
    · exact absurd rfl hends
    · exact ⟨by simp, hadvances⟩
    · exact ⟨by simp, hadvances⟩
  | bulk buffer offset length =>
    obtain ⟨hends, hadvances⟩ := readBuffer_ends h buffer offset length
    have hrequested : (FlacPcmInputStream.ReadCall.bulk buffer offset length).requested =
        if offset < 0 ∨ length < 0 ∨ (buffer.length : ℤ) < offset + length then 0
          else length.toNat := by
      rw [FlacPcmInputStream.ReadCall.requested]
      rfl
    rw [hrequested]
    unfold FlacPcmInputStream.perform
    dsimp only
    generalize s.readBuffer buffer offset length = result at hends hadvances
    obtain ⟨outcome, s'⟩ := result
    rcases outcome with _ | e | ⟨count, buffer⟩
    · exact absurd rfl hends
    · exact ⟨by simp, hadvances⟩
    · exact ⟨by simp, hadvances⟩

/-- So does every one of a sequence of reads; together they take at most one answer of the session
for each byte asked for. -/
theorem performAll_ends {s : FlacPcmInputStream} (h : Flowing s)
    (calls : List FlacPcmInputStream.ReadCall) :
    (∀ outcome ∈ (s.performAll calls).1, outcome ≠ none) ∧
      Advances s (s.performAll calls).2 (FlacPcmInputStream.requestedBy calls) := by
  induction calls generalizing s with
  | nil => exact ⟨nofun, .refl h _⟩
  | cons call calls ih =>
    obtain ⟨hends, hadvances⟩ := perform_ends h call
    obtain ⟨hall, hrest⟩ := ih hadvances.flowing
    have hsum : FlacPcmInputStream.requestedBy (call :: calls) =
        call.requested + FlacPcmInputStream.requestedBy calls := by
      simp [FlacPcmInputStream.requestedBy]
    rw [hsum]
    exact ⟨List.forall_mem_cons.mpr ⟨hends, hall⟩, hadvances.trans hrest⟩

end Pull

/-! ## All five loops -/

/-- No loop of the wrapper spins: the inspections of a stream and of a channel with these answers,
the partial-write loop of the encoder, the PCM reader, and the reads of a PCM stream, whose session
answers by any schedule of which they see no more than the bytes asked for. -/
structure LoopsEnd (answers : ℕ → ReadAnswer InspectionException Byte) : Prop where
  stream : ∃ rounds, (readMagic (scheduled answers) rounds 0).1 ≠ none
  unmarked : ∃ rounds, (inspectUnmarkedStream (scheduled answers) rounds 0).1 ≠ none
  channel : ∀ rounds, magicSize < rounds → (fillMagic (scheduled answers) rounds 0).1 ≠ none
  encoder : ∀ (C : Encode.ChannelObject) context buffer s rounds, buffer.length < rounds →
    (Encode.encodeChannelWriteCallback C context rounds buffer s).1 ≠ none
  reader : ∀ {σ : Type} (read : σ → ℕ → StreamRead × σ) bytesWanted input,
    (readBytesForFrames (counted read) bytesWanted [] (input, 0)).2.2 ≤ bytesWanted
  pull : ∀ (schedule : ℕ → PullRead) (n channels bitsPerSample : ℕ) calls,
    0 < channels → 0 < bitsPerSample →
    let s := FlacPcmInputStream.new ((List.range n).map schedule) channels bitsPerSample
    (∀ outcome ∈ (s.performAll calls).1, outcome ≠ none) ∧
      ∃ k ≤ FlacPcmInputStream.requestedBy calls,
        (s.performAll calls).2.session = s.session.drop k

/-- The loops end exactly when the stream does not stall before its fourth byte. -/
theorem loopsEnd_iff (answers : ℕ → ReadAnswer InspectionException Byte) :
    LoopsEnd answers ↔ ¬ Stalls answers := by
  refine ⟨fun h => (readMagic_ends_iff answers).mp h.stream, fun hstalls => ?_⟩
  obtain ⟨rounds, hends⟩ := (readMagic_ends_iff answers).mpr hstalls
  refine ⟨⟨rounds, hends⟩,
    ⟨rounds, (inspectUnmarkedStream_ends_iff (scheduled answers) rounds 0).mpr hends⟩, ?_, ?_, ?_,
    ?_⟩
  · exact fun rounds hrounds =>
      collect_ends (some noProgress) (scheduled answers) (.inl (by simp)) 0 hrounds
  · exact fun C context buffer s rounds hrounds =>
      encodeChannelWriteCallback_ends C context buffer s hrounds
  · intro σ read bytesWanted input
    have hle := readBytesForFrames_reads_le read bytesWanted [] input 0
    rwa [Nat.zero_add, List.length_nil, Nat.sub_zero] at hle
  · intro schedule n channels bitsPerSample calls hchannels hbits
    have hflowing : Flowing
        (FlacPcmInputStream.new ((List.range n).map schedule) channels bitsPerSample) :=
      ⟨Nat.le_refl 0, hchannels, by show 0 < (bitsPerSample + 7) / 8; omega⟩
    obtain ⟨hall, hadvances⟩ := performAll_ends hflowing calls
    exact ⟨hall, hadvances.session⟩

/-- A stream that answers every read with zero bytes keeps the inspection busy for ever. -/
theorem readMagic_spins :
    (∀ rounds, (readMagic (scheduled fun _ => .data []) rounds 0).1 = none) ∧
      ¬ LoopsEnd fun _ => .data [] := by
  have hstalls : Stalls fun _ => .data [] := ⟨0, nofun, Nat.succ_pos 3, fun _ _ => rfl⟩
  exact ⟨fun rounds => askAgain_stalled _ (Nat.succ_pos 3) fun _ _ => rfl,
    fun h => (loopsEnd_iff _).mp h hstalls⟩

end JFlac.Streams
