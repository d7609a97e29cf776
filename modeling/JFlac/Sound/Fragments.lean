import JFlac.Sound.PcmReader

/-!
# Sources that deliver fragments

Below the reader stands the JDK's `AudioInputStream`, which returns whole frames only and keeps a
partial frame back for the next read, and below that a stream that delivers its bytes in fragments
of any size. The sizes decide what the reader sees: a fragment that completes no frame is a read of
zero bytes, and a partial frame at the end of the stream is never seen at all.
-/

namespace JFlac.Sound

open Lib

/-! ## The streams below the reader -/

/-- How many bytes the stream has ready at each of its reads. -/
structure Schedule where
  ready : ℕ → ℕ
  ready_pos : ∀ i, 0 < ready i

/-- The state of the stream at the bottom: the bytes it delivered and the reads it answered. -/
structure InputState where
  taken : ℕ
  reads : ℕ
  deriving DecidableEq, Repr

/-- `InputStream.read` of a stream of these bytes: at least one byte and at most the length, or -1
at the end. -/
def inputRead (bytes : List Byte) (schedule : Schedule) (s : InputState) (length : ℕ) :
    StreamRead × InputState :=
  if bytes.length ≤ s.taken then (.ended, ⟨s.taken, s.reads + 1⟩)
  else
    let count := min (schedule.ready s.reads) (min length (bytes.length - s.taken))
    (.data (window bytes s.taken (s.taken + count)), ⟨s.taken + count, s.reads + 1⟩)

/-- `AudioInputStream` with an unspecified frame length. -/
structure AudioInputStream where
  pushBack : List Byte
  input : InputState
  deriving DecidableEq, Repr

/-- `AudioInputStream.read`: whole frames only. What is left of a frame waits in the push-back
buffer, and is dropped when the stream below is at its end. -/
def AudioInputStream.read (frameSize : ℕ) (bytes : List Byte) (schedule : Schedule)
    (s : AudioInputStream) (length : ℕ) : StreamRead × AudioInputStream :=
  let length := length - length % frameSize
  if length = 0 then (.data [], s)
  else
    let pushed := if s.pushBack.length ≤ length then s.pushBack else []
    let kept := if s.pushBack.length ≤ length then [] else s.pushBack
    match inputRead bytes schedule s.input (length - pushed.length) with
    | (.ended, input) => (.ended, ⟨kept, input⟩)
    | (.raised e, input) => (.raised e, ⟨kept, input⟩)
    | (.data got, input) =>
      let all := pushed ++ got
      let whole := all.length - all.length % frameSize
      if all = [] then (.data [], ⟨kept, input⟩)
      else (.data (all.take whole), ⟨all.drop whole, input⟩)

/-- Where the stream stands before anything was read. -/
def AudioInputStream.initial : AudioInputStream := ⟨[], ⟨0, 0⟩⟩

/-! ## When every fragment completes a frame -/

variable (layout : PcmLayout) (bytes : List Byte) (schedule : Schedule)

/-- The bytes the bottom stream has delivered before its `i`-th read, when the reader asks for what
is missing of its current batch of 1024 frames. -/
def arrived : ℕ → ℕ
  | 0 => 0
  | i + 1 =>
    arrived i + min (schedule.ready i)
      (min (bufferFrames * layout.frameSize - arrived i % (bufferFrames * layout.frameSize))
        (bytes.length - arrived i))

theorem arrived_mono : Monotone (arrived layout bytes schedule) :=
  monotone_nat_of_le_succ fun _ => Nat.le_add_right _ _

/-- Read `i` of the bottom stream completes a frame. -/
def Completes (i : ℕ) : Prop :=
  arrived layout bytes schedule i / layout.frameSize <
    arrived layout bytes schedule (i + 1) / layout.frameSize

/-- Every fragment the bottom stream delivers completes a frame. -/
def CompletesFrames : Prop :=
  ∀ i, arrived layout bytes schedule i < bytes.length → Completes layout bytes schedule i

/-- What the writer should do with a source: take the frames of one that consists of whole frames,
and reject any other. -/
def AcceptsExactly (fuel : ℕ) : Prop :=
  (layout.frameSize ∣ bytes.length → ∃ written,
    writePcm layout (AudioInputStream.read layout.frameSize bytes schedule) fuel (sampleArray layout)
      .initial [] = some (.ok (), written) ∧ Carries written (frames layout bytes)) ∧
  (¬ layout.frameSize ∣ bytes.length → ∃ message written,
    writePcm layout (AudioInputStream.read layout.frameSize bytes schedule) fuel (sampleArray layout)
      .initial [] = some (.error (.ioException message), written))

/-! ## One read -/

/-- The stream stands before read `i`, the reader is in batch `b` and has collected `total`: all
whole frames of the batch that have arrived. The rest of the last frame is pushed back. -/
structure At (b i : ℕ) (total : List Byte) (s : AudioInputStream) : Prop where
  input : s.input = ⟨arrived layout bytes schedule i, i⟩
  arrived_le : arrived layout bytes schedule i ≤ bytes.length
  first_le : b * (bufferFrames * layout.frameSize) ≤ arrived layout bytes schedule i
  le_last : arrived layout bytes schedule i ≤ (b + 1) * (bufferFrames * layout.frameSize)
  pushBack : s.pushBack = window bytes
    (arrived layout bytes schedule i / layout.frameSize * layout.frameSize)
    (arrived layout bytes schedule i)
  total : total = window bytes (b * (bufferFrames * layout.frameSize))
    (arrived layout bytes schedule i / layout.frameSize * layout.frameSize)

namespace At

variable {layout bytes schedule} {b i : ℕ} {total : List Byte} {s : AudioInputStream}

/-- The batch begins at a frame boundary, at or before the last whole frame that has arrived. -/
theorem batch_le (h : At layout bytes schedule b i total s) :
    b * (bufferFrames * layout.frameSize) ≤
      arrived layout bytes schedule i / layout.frameSize * layout.frameSize := by
  have hfirst := h.first_le
  rw [← Nat.mul_assoc] at hfirst ⊢
  exact Nat.mul_le_mul_right _ ((Nat.le_div_iff_mul_le layout.frameSize_pos).mpr hfirst)

theorem frames_le (h : At layout bytes schedule b i total s) :
    arrived layout bytes schedule i / layout.frameSize * layout.frameSize ≤ bytes.length :=
  (Nat.div_mul_le_self _ _).trans h.arrived_le

theorem length_total (h : At layout bytes schedule b i total s) :
    total.length = arrived layout bytes schedule i / layout.frameSize * layout.frameSize -
      b * (bufferFrames * layout.frameSize) := by
  rw [h.total, length_window h.frames_le]

theorem length_pushBack (h : At layout bytes schedule b i total s) :
    s.pushBack.length = arrived layout bytes schedule i % layout.frameSize := by
  rw [h.pushBack, length_window h.arrived_le]
  have := Nat.div_add_mod' (arrived layout bytes schedule i) layout.frameSize
  omega

/-- While the batch is not full, a whole frame of it is missing. -/
theorem room (h : At layout bytes schedule b i total s)
    (hroom : arrived layout bytes schedule i < (b + 1) * (bufferFrames * layout.frameSize)) :
    total.length + layout.frameSize ≤ bufferFrames * layout.frameSize := by
  have hquot : arrived layout bytes schedule i / layout.frameSize < (b + 1) * bufferFrames := by
    rw [← Nat.mul_assoc] at hroom
    exact (Nat.div_lt_iff_lt_mul layout.frameSize_pos).mpr hroom
  have hnext : (arrived layout bytes schedule i / layout.frameSize + 1) * layout.frameSize ≤
      (b + 1) * bufferFrames * layout.frameSize := Nat.mul_le_mul_right _ hquot
  rw [Nat.succ_mul, Nat.mul_assoc, Nat.succ_mul] at hnext
  have hlength := h.length_total
  have hbatch := h.batch_le
  omega

/-- The reader asks for a whole number of frames. -/
theorem request_mod (h : At layout bytes schedule b i total s) :
    (bufferFrames * layout.frameSize - total.length) % layout.frameSize = 0 := by
  have hdvd : layout.frameSize ∣ bufferFrames * layout.frameSize - total.length := by
    rw [h.length_total]
    exact Nat.dvd_sub (Nat.dvd_mul_left _ _)
      (Nat.dvd_sub (Nat.dvd_mul_left _ _) (Nat.dvd_mul_left_of_dvd (Nat.dvd_mul_left _ _) _))
  exact Nat.mod_eq_zero_of_dvd hdvd

/-- What the bottom stream is asked for is what is missing of the batch. -/
theorem request (h : At layout bytes schedule b i total s)
    (hroom : arrived layout bytes schedule i < (b + 1) * (bufferFrames * layout.frameSize)) :
    bufferFrames * layout.frameSize - total.length - s.pushBack.length =
      bufferFrames * layout.frameSize -
        arrived layout bytes schedule i % (bufferFrames * layout.frameSize) := by
  have hlength := h.length_total
  have hbatch := h.batch_le
  have hsplit := Nat.div_add_mod' (arrived layout bytes schedule i) layout.frameSize
  have hmod : arrived layout bytes schedule i % (bufferFrames * layout.frameSize) =
      arrived layout bytes schedule i - b * (bufferFrames * layout.frameSize) := by
    have hquot : arrived layout bytes schedule i / (bufferFrames * layout.frameSize) = b :=
      Nat.div_eq_of_lt_le h.first_le hroom
    have hdiv := Nat.div_add_mod' (arrived layout bytes schedule i) (bufferFrames * layout.frameSize)
    rw [hquot] at hdiv
    omega
  rw [hmod, h.length_pushBack]
  omega

/-- A read while bytes are left: the reader gets the frames that this fragment completes. -/
theorem read_bytes (h : At layout bytes schedule b i total s)
    (hroom : arrived layout bytes schedule i < (b + 1) * (bufferFrames * layout.frameSize))
    (hmore : arrived layout bytes schedule i < bytes.length) :
    ∃ s', AudioInputStream.read layout.frameSize bytes schedule s
        (bufferFrames * layout.frameSize - total.length) =
        (.data (window bytes
          (arrived layout bytes schedule i / layout.frameSize * layout.frameSize)
          (arrived layout bytes schedule (i + 1) / layout.frameSize * layout.frameSize)), s') ∧
      At layout bytes schedule b (i + 1) (total ++ window bytes
        (arrived layout bytes schedule i / layout.frameSize * layout.frameSize)
        (arrived layout bytes schedule (i + 1) / layout.frameSize * layout.frameSize)) s' := by
  have hpos := layout.frameSize_pos
  have hspace := h.room hroom
  have hpushed : s.pushBack.length ≤ bufferFrames * layout.frameSize - total.length := by
    rw [h.length_pushBack]
    have := Nat.mod_lt (arrived layout bytes schedule i) hpos
    omega
  have hrequest := h.request hroom
  have hnext : arrived layout bytes schedule (i + 1) = arrived layout bytes schedule i +
      min (schedule.ready i) (min (bufferFrames * layout.frameSize - total.length -
        s.pushBack.length) (bytes.length - arrived layout bytes schedule i)) := by
    rw [hrequest]
    rfl
  have hpushLength := h.length_pushBack
  have hmod := Nat.mod_lt (arrived layout bytes schedule i) hpos
  have hready := schedule.ready_pos i
  -- the fragment stays within the batch
  have hlast : arrived layout bytes schedule (i + 1) ≤
      (b + 1) * (bufferFrames * layout.frameSize) := by
    have hlength := h.length_total
    have hbatch := h.batch_le
    have hsplit := Nat.div_add_mod' (arrived layout bytes schedule i) layout.frameSize
    rw [Nat.succ_mul]
    omega
  have hfirst := h.first_le
  generalize hp : arrived layout bytes schedule i = p at *
  generalize hp' : arrived layout bytes schedule (i + 1) = p' at *
  have hsplit := Nat.div_add_mod' p layout.frameSize
  have hsplit' := Nat.div_add_mod' p' layout.frameSize
  have hframes : p / layout.frameSize * layout.frameSize ≤ p' / layout.frameSize * layout.frameSize :=
    Nat.mul_le_mul_right _ (Nat.div_le_div_right (by omega))
  have hle : p' ≤ bytes.length := by omega
  have hall : s.pushBack ++ window bytes p p' =
      window bytes (p / layout.frameSize * layout.frameSize) p' := by
    rw [h.pushBack, hp, window_append (by omega) (by omega)]
  have hlength : (window bytes (p / layout.frameSize * layout.frameSize) p').length =
      p' - p / layout.frameSize * layout.frameSize := length_window hle
  have hwhole : p' - p / layout.frameSize * layout.frameSize -
      (p' - p / layout.frameSize * layout.frameSize) % layout.frameSize =
      p' / layout.frameSize * layout.frameSize - p / layout.frameSize * layout.frameSize := by
    have hrest : (p' - p / layout.frameSize * layout.frameSize) % layout.frameSize =
        p' % layout.frameSize := by
      conv_rhs => rw [← Nat.sub_add_cancel (by omega : p / layout.frameSize * layout.frameSize ≤ p')]
      rw [Nat.add_mul_mod_self_right]
    omega
  have hnonempty : window bytes (p / layout.frameSize * layout.frameSize) p' ≠ [] := by
    rw [Ne, window_eq_nil_iff hle]
    omega
  refine ⟨⟨window bytes (p' / layout.frameSize * layout.frameSize) p', ⟨p', i + 1⟩⟩, ?_, ?_⟩
  · rw [AudioInputStream.read, h.request_mod, Nat.sub_zero]
    dsimp only
    rw [if_neg (by omega), if_pos hpushed, if_pos hpushed, inputRead, h.input, hp,
      if_neg (show ¬ bytes.length ≤ p by omega)]
    dsimp only
    rw [← hnext, hall, if_neg hnonempty, hlength, hwhole, take_window hframes (by omega) hle,
      drop_window hframes (by omega) hle]
  · refine ⟨by rw [hp'], by rw [hp']; exact hle, by rw [hp']; omega, by rw [hp']; exact hlast,
      by rw [hp'], ?_⟩
    have hbatch := h.batch_le
    rw [hp] at hbatch
    rw [hp', h.total, hp, window_append hbatch hframes]

/-- A read at the end: the partial frame is dropped. -/
theorem read_end (h : At layout bytes schedule b i total s)
    (hroom : arrived layout bytes schedule i < (b + 1) * (bufferFrames * layout.frameSize))
    (hend : arrived layout bytes schedule i = bytes.length) :
    AudioInputStream.read layout.frameSize bytes schedule s
      (bufferFrames * layout.frameSize - total.length) =
      (.ended, ⟨[], ⟨bytes.length, i + 1⟩⟩) := by
  have hpos := layout.frameSize_pos
  have hspace := h.room hroom
  have hpushed : s.pushBack.length ≤ bufferFrames * layout.frameSize - total.length := by
    rw [h.length_pushBack]
    have := Nat.mod_lt (arrived layout bytes schedule i) hpos
    omega
  rw [AudioInputStream.read, h.request_mod, Nat.sub_zero]
  dsimp only
  rw [if_neg (by omega), if_pos hpushed, inputRead, h.input, if_pos (by rw [hend])]
  simp only [hend, if_pos hpushed]

end At

/-! ## One batch -/

/-- The message of a read that returned nothing. -/
def noBytesMessage : String := "PCM input returned no bytes for a positive read request."

section Batch

variable {layout bytes schedule} {b i : ℕ} {total : List Byte} {s : AudioInputStream}

/-- A full batch is where the next one begins. -/
theorem At.full (h : At layout bytes schedule b i total s)
    (hfull : arrived layout bytes schedule i = (b + 1) * (bufferFrames * layout.frameSize)) :
    total = window bytes (b * (bufferFrames * layout.frameSize))
        ((b + 1) * (bufferFrames * layout.frameSize)) ∧
      At layout bytes schedule (b + 1) i [] s := by
  have hwhole : arrived layout bytes schedule i / layout.frameSize * layout.frameSize =
      (b + 1) * (bufferFrames * layout.frameSize) := by
    rw [hfull]
    exact Nat.div_mul_cancel (Nat.dvd_mul_left_of_dvd (Nat.dvd_mul_left _ _) _)
  refine ⟨by rw [h.total, hwhole], h.input, h.arrived_le, hfull.ge, ?_, h.pushBack, ?_⟩
  · rw [hfull]
    exact Nat.mul_le_mul_right _ (Nat.le_succ _)
  · rw [hwhole, window_self]

/-- The reader returns a full frame buffer. -/
theorem readBytesForFrames_full {σ : Type} {read : σ → ℕ → StreamRead × σ} {bytesWanted : ℕ}
    {frameBuffer : List Byte} {input : σ} (h : bytesWanted ≤ frameBuffer.length) :
    readBytesForFrames read bytesWanted frameBuffer input = (.ok (some frameBuffer), input) := by
  rw [readBytesForFrames, if_neg (by omega)]

/-- How a batch ends that stood before read `i`, after reads that all completed a frame: at a
fragment that completes none, full, or at the end of the stream. -/
inductive BatchEnd (layout : PcmLayout) (bytes : List Byte) (schedule : Schedule) (b i : ℕ) :
    Except SoundException (Option (List Byte)) × AudioInputStream → Prop where
  | incomplete {s' : AudioInputStream} (j : ℕ)
      (completes : ∀ k, i ≤ k → k < j → Completes layout bytes schedule k) (le : i ≤ j)
      (more : arrived layout bytes schedule j < bytes.length)
      (stuck : ¬ Completes layout bytes schedule j) :
      BatchEnd layout bytes schedule b i (.error (.ioException noBytesMessage), s')
  | full {s' : AudioInputStream} (j : ℕ)
      (completes : ∀ k, i ≤ k → k < j → Completes layout bytes schedule k) (le : i ≤ j)
      (next : At layout bytes schedule (b + 1) j [] s')
      (filled : arrived layout bytes schedule j = (b + 1) * (bufferFrames * layout.frameSize)) :
      BatchEnd layout bytes schedule b i (.ok (some (window bytes
        (b * (bufferFrames * layout.frameSize)) ((b + 1) * (bufferFrames * layout.frameSize)))), s')
  | ended (j : ℕ)
      (completes : ∀ k, i ≤ k → k < j → Completes layout bytes schedule k) (le : i ≤ j)
      (finished : arrived layout bytes schedule j = bytes.length)
      (short : bytes.length < (b + 1) * (bufferFrames * layout.frameSize)) :
      BatchEnd layout bytes schedule b i
        (.ok (if window bytes (b * (bufferFrames * layout.frameSize))
            (bytes.length / layout.frameSize * layout.frameSize) = [] then none
          else some (window bytes (b * (bufferFrames * layout.frameSize))
            (bytes.length / layout.frameSize * layout.frameSize))), ⟨[], ⟨bytes.length, j + 1⟩⟩)

/-- What ends a batch after a read that completed a frame also ends it before that read. -/
theorem BatchEnd.of_completes {result : Except SoundException (Option (List Byte)) × AudioInputStream}
    (hi : Completes layout bytes schedule i) (h : BatchEnd layout bytes schedule b (i + 1) result) :
    BatchEnd layout bytes schedule b i result := by
  have hextend : ∀ {j}, (∀ k, i + 1 ≤ k → k < j → Completes layout bytes schedule k) →
      ∀ k, i ≤ k → k < j → Completes layout bytes schedule k := by
    intro j hall k hik hkj
    rcases Nat.eq_or_lt_of_le hik with rfl | hlt
    · exact hi
    · exact hall k hlt hkj
  cases h with
  | incomplete j completes le more stuck =>
    exact .incomplete j (hextend completes) (Nat.le_of_succ_le le) more stuck
  | full j completes le next filled =>
    exact .full j (hextend completes) (Nat.le_of_succ_le le) next filled
  | ended j completes le finished short =>
    exact .ended j (hextend completes) (Nat.le_of_succ_le le) finished short

theorem readBytesForFrames_outcome (h : At layout bytes schedule b i total s) :
    BatchEnd layout bytes schedule b i
      (readBytesForFrames (AudioInputStream.read layout.frameSize bytes schedule)
        (bufferFrames * layout.frameSize) total s) := by
  obtain ⟨left, hleft⟩ : ∃ left, (b + 1) * (bufferFrames * layout.frameSize) -
    arrived layout bytes schedule i = left := ⟨_, rfl⟩
  induction left using Nat.strong_induction_on generalizing i total s with
  | _ left ih =>
    have hnone : ∀ k, i ≤ k → k < i → Completes layout bytes schedule k := by omega
    rcases Nat.eq_or_lt_of_le h.le_last with hfull | hroom
    · obtain ⟨htotal, hnext⟩ := h.full hfull
      have hlength : bufferFrames * layout.frameSize ≤ total.length := by
        rw [htotal, length_window (hfull ▸ h.arrived_le), Nat.succ_mul]
        omega
      rw [readBytesForFrames_full hlength, htotal]
      exact .full i hnone (Nat.le_refl _) hnext hfull
    have hspace := h.room hroom
    have hpos := layout.frameSize_pos
    rw [readBytesForFrames, if_pos (by omega)]
    rcases Nat.eq_or_lt_of_le h.arrived_le with hend | hmore
    · rw [h.read_end hroom hend]
      dsimp only
      have htotal := h.total
      rw [hend] at htotal
      rw [htotal]
      exact .ended i hnone (Nat.le_refl _) hend (hend ▸ hroom)
    obtain ⟨s', hread, hnext⟩ := h.read_bytes hroom hmore
    rw [hread]
    cases hgot : window bytes (arrived layout bytes schedule i / layout.frameSize * layout.frameSize)
        (arrived layout bytes schedule (i + 1) / layout.frameSize * layout.frameSize) with
    | nil =>
      refine .incomplete i hnone (Nat.le_refl _) hmore fun hcompletes => ?_
      rw [window_eq_nil_iff hnext.frames_le] at hgot
      have := Nat.mul_lt_mul_of_pos_right hcompletes hpos
      omega
    | cons byte more =>
      have hcompletes : Completes layout bytes schedule i := by
        have hne : ¬ arrived layout bytes schedule (i + 1) / layout.frameSize * layout.frameSize ≤
            arrived layout bytes schedule i / layout.frameSize * layout.frameSize := by
          rw [← window_eq_nil_iff hnext.frames_le, hgot]
          exact List.cons_ne_nil _ _
        exact Nat.lt_of_mul_lt_mul_right (Nat.lt_of_not_le hne)
      rw [hgot] at hnext
      have hadvance : arrived layout bytes schedule i < arrived layout bytes schedule (i + 1) := by
        by_contra hle
        exact absurd (Nat.div_le_div_right (Nat.le_of_not_lt hle)) (Nat.not_le_of_lt hcompletes)
      exact (ih _ (by omega) hnext rfl).of_completes hcompletes

/-- Behind the end the reader reports the end. -/
theorem readBytesForFrames_drained {reads : ℕ} :
    readBytesForFrames (AudioInputStream.read layout.frameSize bytes schedule)
      (bufferFrames * layout.frameSize) [] ⟨[], ⟨bytes.length, reads⟩⟩ =
      (.ok none, ⟨[], ⟨bytes.length, reads + 1⟩⟩) := by
  have hpos := layout.frameSize_pos
  have hwanted : 0 < bufferFrames * layout.frameSize := Nat.mul_pos (by decide) hpos
  rw [readBytesForFrames, List.length_nil, if_pos hwanted, AudioInputStream.read, Nat.sub_zero,
    Nat.mul_mod_left, Nat.sub_zero]
  dsimp only
  rw [if_neg (by omega)]
  simp only [ite_self]
  rw [inputRead, if_pos (Nat.le_refl _)]
  rfl

end Batch

/-! ## The whole source -/

section Source

variable {layout bytes schedule} {b i : ℕ} {s : AudioInputStream}

/-- The frames before a frame boundary and those behind it. -/
theorem frames_window {m last : ℕ} (hm : m * layout.frameSize ≤ last) (hlast : last ≤ bytes.length) :
    frames layout (window bytes 0 (m * layout.frameSize)) ++
        frames layout (window bytes (m * layout.frameSize) last) =
      frames layout (window bytes 0 last) := by
  have hlength : (window bytes 0 (m * layout.frameSize)).length = m * layout.frameSize := by
    rw [length_window (hm.trans hlast), Nat.sub_zero]
  rw [← frames_append layout _ hlength, window_append (Nat.zero_le _) hm]

/-- A partial frame at the end is not among the frames. -/
theorem frames_whole :
    frames layout (window bytes 0 (bytes.length / layout.frameSize * layout.frameSize)) =
      frames layout bytes := by
  have hle := Nat.div_mul_le_self bytes.length layout.frameSize
  have hrest : (window bytes (bytes.length / layout.frameSize * layout.frameSize)
      bytes.length).length < layout.frameSize := by
    rw [length_window (Nat.le_refl _)]
    have hsplit := Nat.div_add_mod' bytes.length layout.frameSize
    have hmod := Nat.mod_lt bytes.length layout.frameSize_pos
    omega
  have hcut := frames_window hle (Nat.le_refl _)
  rwa [frames_of_lt layout hrest, List.append_nil, window_zero_length] at hcut

/-- How the writer ends: it fails at the first fragment that completes no frame, and otherwise hands
over all whole frames of the source. -/
theorem writePcm_outcome (fuel : ℕ) (h : At layout bytes schedule b i [] s) {samples : List Sample}
    {written : List Chunk} (hsamples : samples.length = bufferFrames * layout.channels)
    (hstart : arrived layout bytes schedule i = b * (bufferFrames * layout.frameSize))
    (hfuel : bytes.length - b * (bufferFrames * layout.frameSize) + 1 < fuel)
    (hwritten : Carries written
      (frames layout (window bytes 0 (b * (bufferFrames * layout.frameSize))))) :
    ∃ j, i ≤ j ∧ (∀ k, i ≤ k → k < j → Completes layout bytes schedule k) ∧ ∃ written',
      ((arrived layout bytes schedule j < bytes.length ∧ ¬ Completes layout bytes schedule j ∧
        writePcm layout (AudioInputStream.read layout.frameSize bytes schedule) fuel samples s written =
          some (.error (.ioException noBytesMessage), written')) ∨
      (arrived layout bytes schedule j = bytes.length ∧
        writePcm layout (AudioInputStream.read layout.frameSize bytes schedule) fuel samples s written =
          some (.ok (), written') ∧ Carries written' (frames layout bytes))) := by
  have hpos := layout.frameSize_pos
  induction fuel generalizing b i s samples written with
  | zero => omega
  | succ fuel ih =>
    have hbatch := readBytesForFrames_outcome h
    generalize hresult : readBytesForFrames (AudioInputStream.read layout.frameSize bytes schedule)
      (bufferFrames * layout.frameSize) [] s = result at hbatch
    cases hbatch with
    | incomplete j completes le more stuck =>
      exact ⟨j, le, completes, written,
        Or.inl ⟨more, stuck, writePcm_error written fuel hsamples hresult⟩⟩
    | full j completes le next filled =>
      have hlast : (b + 1) * (bufferFrames * layout.frameSize) ≤ bytes.length :=
        filled ▸ next.arrived_le
      have hlength : (window bytes (b * (bufferFrames * layout.frameSize))
          ((b + 1) * (bufferFrames * layout.frameSize))).length = bufferFrames * layout.frameSize := by
        rw [length_window hlast, Nat.succ_mul]
        omega
      obtain ⟨samples', hsamples', hround⟩ :=
        writePcm_batch written fuel hsamples (Nat.le_refl _) hlength hresult
      have hrows : frames layout (window bytes 0 (b * (bufferFrames * layout.frameSize))) ++
          frames layout (window bytes (b * (bufferFrames * layout.frameSize))
            ((b + 1) * (bufferFrames * layout.frameSize))) =
          frames layout (window bytes 0 ((b + 1) * (bufferFrames * layout.frameSize))) := by
        have hle : b * bufferFrames * layout.frameSize ≤
            (b + 1) * (bufferFrames * layout.frameSize) := by
          rw [Nat.mul_assoc]
          exact Nat.mul_le_mul_right _ (Nat.le_succ _)
        have hcut := frames_window hle hlast
        rwa [Nat.mul_assoc] at hcut
      have hwanted : 0 < bufferFrames * layout.frameSize := Nat.mul_pos (by decide) hpos
      obtain ⟨j', hle, hcompletes, written', hend⟩ := ih next hsamples' filled
        (by rw [Nat.succ_mul] at hlast ⊢; omega) (hrows ▸ hwritten.append _)
      rw [← hround] at hend
      refine ⟨j', le.trans hle, fun k hik hkj => ?_, written', hend⟩
      rcases Nat.lt_or_ge k j with hlt | hge
      · exact completes k hik hlt
      · exact hcompletes k hge hkj
    | ended j completes le finished short =>
      have hfirst : b * bufferFrames * layout.frameSize ≤ bytes.length := by
        rw [Nat.mul_assoc, ← hstart]
        exact h.arrived_le
      have hquot : b * bufferFrames ≤ bytes.length / layout.frameSize :=
        (Nat.le_div_iff_mul_le hpos).mpr hfirst
      have hwhole : b * bufferFrames * layout.frameSize ≤
          bytes.length / layout.frameSize * layout.frameSize := Nat.mul_le_mul_right _ hquot
      have hrows := frames_window hwhole (Nat.div_mul_le_self bytes.length layout.frameSize)
      rw [frames_whole, Nat.mul_assoc] at hrows
      refine ⟨j, le, completes, ?_⟩
      by_cases hempty : window bytes (b * (bufferFrames * layout.frameSize))
          (bytes.length / layout.frameSize * layout.frameSize) = []
      · rw [if_pos hempty] at hresult
        rw [hempty, frames_nil, List.append_nil] at hrows
        exact ⟨written, Or.inr ⟨finished, writePcm_end written fuel hsamples hresult, hrows ▸ hwritten⟩⟩
      · rw [if_neg hempty] at hresult
        have hlength : (window bytes (b * (bufferFrames * layout.frameSize))
            (bytes.length / layout.frameSize * layout.frameSize)).length =
            (bytes.length / layout.frameSize - b * bufferFrames) * layout.frameSize := by
          rw [length_window (Nat.div_mul_le_self _ _), Nat.sub_mul, Nat.mul_assoc]
        have hbatch : bytes.length / layout.frameSize - b * bufferFrames ≤ bufferFrames := by
          rw [← Nat.mul_assoc] at short
          have hlt := (Nat.div_lt_iff_lt_mul hpos).mpr short
          rw [Nat.succ_mul] at hlt
          omega
        obtain ⟨samples', hsamples', hround⟩ :=
          writePcm_batch written fuel hsamples hbatch hlength hresult
        obtain ⟨fuel, rfl⟩ : ∃ fuel', fuel = fuel' + 1 := by
          refine ⟨fuel - 1, ?_⟩
          rw [window_eq_nil_iff (Nat.div_mul_le_self _ _)] at hempty
          have := Nat.div_mul_le_self bytes.length layout.frameSize
          omega
        refine ⟨_, Or.inr ⟨finished,
          hround.trans (writePcm_end _ fuel hsamples' readBytesForFrames_drained), ?_⟩⟩
        rw [← hrows]
        exact hwritten.append _

/-- Before the first read. -/
theorem at_initial : At layout bytes schedule 0 0 [] .initial where
  input := rfl
  arrived_le := Nat.zero_le _
  first_le := Nat.le_of_eq (Nat.zero_mul _)
  le_last := Nat.zero_le _
  pushBack := by
    show [] = window bytes (0 / layout.frameSize * layout.frameSize) 0
    rw [Nat.zero_div, Nat.zero_mul, window_self]
  total := by
    show [] = window bytes _ (0 / layout.frameSize * layout.frameSize)
    rw [Nat.zero_div, Nat.zero_mul, Nat.zero_mul, window_self]

end Source

/-- The writer treats a source as it should exactly when every fragment of a source of whole frames
completes a frame, and some fragment of any other source completes none. -/
theorem writePcm_acceptsExactly_iff (layout : PcmLayout) (bytes : List Byte) (schedule : Schedule)
    (extra : ℕ) :
    AcceptsExactly layout bytes schedule (bytes.length + 2 + extra) ↔
      (layout.frameSize ∣ bytes.length ↔ CompletesFrames layout bytes schedule) := by
  have hinitial : At layout bytes schedule 0 0 [] .initial := at_initial
  have hcarries : Carries []
      (frames layout (window bytes 0 (0 * (bufferFrames * layout.frameSize)))) := by
    rw [Nat.zero_mul, window_self, frames_nil]
    exact carries_nil
  have hfuel : bytes.length - 0 * (bufferFrames * layout.frameSize) + 1 <
      bytes.length + 2 + extra := by omega
  obtain ⟨j, -, hcompletes, written', hend⟩ := writePcm_outcome (bytes.length + 2 + extra) hinitial
    (length_sampleArray layout) (Nat.zero_mul _).symm hfuel hcarries
  rcases hend with ⟨hmore, hstuck, hrun⟩ | ⟨hfinished, hrun, hcarries⟩
  · have hnot : ¬ CompletesFrames layout bytes schedule := fun h => hstuck (h j hmore)
    constructor
    · intro haccepts
      refine ⟨fun hwhole => ?_, fun h => absurd h hnot⟩
      obtain ⟨written, hok, -⟩ := haccepts.1 hwhole
      rw [hrun] at hok
      simp at hok
    · exact fun hiff => ⟨fun hwhole => absurd (hiff.mp hwhole) hnot, fun _ => ⟨_, _, hrun⟩⟩
  · have hall : CompletesFrames layout bytes schedule := by
      intro i hi
      refine hcompletes i (Nat.zero_le _) (Nat.lt_of_not_le fun hji => ?_)
      have hmono := arrived_mono layout bytes schedule hji
      omega
    constructor
    · intro haccepts
      refine ⟨fun _ => hall, fun _ => by_contra fun hpartial => ?_⟩
      obtain ⟨message, written, herror⟩ := haccepts.2 hpartial
      rw [hrun] at herror
      simp at herror
    · exact fun hiff =>
        ⟨fun _ => ⟨written', hrun, hcarries⟩, fun hpartial => absurd (hiff.mpr hall) hpartial⟩

/-- Signed 16-bit mono. -/
def monoLayout : PcmLayout where
  encoding := .pcmSigned
  channels := 1
  bitsPerSample := 16
  bigEndian := false
  channels_pos := by decide
  channels_le := by decide
  accepted := by decide
  depth := by decide

/-- One frame whose two bytes arrive one by one is rejected, and the third byte of a source that
delivers everything at once is dropped without an exception. -/
theorem writePcm_not_acceptsExactly :
    ¬ AcceptsExactly monoLayout [1, 2] ⟨fun _ => 1, fun _ => Nat.one_pos⟩ 4 ∧
      ¬ AcceptsExactly monoLayout [1, 2, 3] ⟨fun _ => 4, fun _ => by decide⟩ 5 := by
  constructor
  · intro h
    have hread : readBytesForFrames (AudioInputStream.read monoLayout.frameSize [1, 2]
        ⟨fun _ => 1, fun _ => Nat.one_pos⟩) (bufferFrames * monoLayout.frameSize) [] .initial =
        (.error (.ioException noBytesMessage), ⟨[1], ⟨1, 1⟩⟩) := by
      rw [readBytesForFrames, if_pos (by decide)]
      rfl
    obtain ⟨written, hok, -⟩ := h.1 (by decide)
    rw [writePcm_error [] 3 (length_sampleArray monoLayout) hread] at hok
    simp at hok
  · intro h
    have hread : readBytesForFrames (AudioInputStream.read monoLayout.frameSize [1, 2, 3]
        ⟨fun _ => 4, fun _ => by decide⟩) (bufferFrames * monoLayout.frameSize) [] .initial =
        (.ok (some [1, 2]), ⟨[], ⟨3, 2⟩⟩) := by
      rw [readBytesForFrames, if_pos (by decide)]
      show readBytesForFrames _ _ [1, 2] (AudioInputStream.mk [3] ⟨3, 1⟩) = _
      rw [readBytesForFrames, if_pos (by decide)]
      rfl
    obtain ⟨samples', hsamples', hround⟩ := writePcm_batch [] 4 (length_sampleArray monoLayout)
      (show 1 ≤ bufferFrames by decide) rfl hread
    obtain ⟨message, written, herror⟩ := h.2 (by decide)
    have hdrained : readBytesForFrames (AudioInputStream.read monoLayout.frameSize [1, 2, 3]
        ⟨fun _ => 4, fun _ => by decide⟩) (bufferFrames * monoLayout.frameSize) [] ⟨[], ⟨3, 2⟩⟩ =
        (.ok none, ⟨[], ⟨3, 3⟩⟩) := readBytesForFrames_drained
    rw [hround, writePcm_end _ 3 hsamples' hdrained] at herror
    simp at herror

end JFlac.Sound
