import JFlac.Lib.Rows
import JFlac.Sound.Samples

/-!
# The PCM stream of a pull session

`FlacPcmInputStream` turns the chunks of a pull session into bytes, on demand and into the caller's
buffers. Three sizes are at work that have nothing to do with each other: the frames of a chunk,
the capacity of the byte buffer and the lengths the caller asks for.

What is still to come of a stream is one list of bytes (`Serves`): the unread part of the byte
buffer, then the encoded chunks the session has yet to deliver. A read takes its bytes off the
front of that list (`read_spec`), so the sizes do not matter.
-/

namespace JFlac.Sound

open Lib

/-- The exceptions of the Java Sound module. -/
inductive SoundException where
  | ioException (message : String)
  | illegalArgumentException (message : String)
  | indexOutOfBoundsException
  | other (identity : ℕ)
  deriving DecidableEq, Repr

/-! ## Overwriting buffers -/

/-- Writes `values` over a buffer from position `start` on. -/
def splice {α : Type} (values buffer : List α) (start : ℕ) : List α :=
  buffer.take start ++ values ++ buffer.drop (start + values.length)

/-- `System.arraycopy`. -/
def arraycopy {α : Type} (source : List α) (sourcePosition : ℕ) (destination : List α)
    (destinationPosition length : ℕ) : List α :=
  splice ((source.drop sourcePosition).take length) destination destinationPosition

section

variable {α : Type} {values buffer : List α} {start : ℕ}

theorem take_splice_zero (values buffer : List α) :
    (splice values buffer 0).take values.length = values := by
  simp [splice]

theorem splice_nil : splice [] buffer start = buffer := by simp [splice]

theorem length_splice (h : start + values.length ≤ buffer.length) :
    (splice values buffer start).length = buffer.length := by
  simp only [splice, List.length_append, List.length_take, List.length_drop]
  omega

/-- Writing behind what was just written is writing both at once. -/
theorem splice_splice (more : List α) (h : start + values.length ≤ buffer.length) :
    splice more (splice values buffer start) (start + values.length) =
      splice (values ++ more) buffer start := by
  have hprefix : (buffer.take start ++ values).length = start + values.length := by
    rw [List.length_append, List.length_take]
    omega
  have htake : (splice values buffer start).take (start + values.length) =
      buffer.take start ++ values := by
    rw [splice, ← hprefix]
    exact List.take_left' rfl
  have hdrop : (splice values buffer start).drop (start + values.length + more.length) =
      buffer.drop (start + (values ++ more).length) := by
    rw [splice, ← List.drop_drop, List.drop_left' hprefix, List.drop_drop, List.length_append,
      Nat.add_assoc]
  rw [splice, htake, hdrop, splice, List.append_assoc (buffer.take start)]

/-- What was written can be read back at its place. -/
theorem take_drop_splice (h : start ≤ buffer.length) :
    ((splice values buffer start).drop start).take values.length = values := by
  have hprefix : (buffer.take start).length = start := by
    rw [List.length_take]
    omega
  rw [splice, List.append_assoc, List.drop_left' hprefix]
  exact List.take_left' rfl

end

/-! ## The stream -/

/-- What `FlacPullDecodingSession.readInterleaved` does: it stores the samples of a number of
frames, reports the end of the stream or throws. -/
inductive PullRead where
  | frames (frames : ℕ) (samples : List Sample)
  | endOfStream
  | failed
  deriving DecidableEq, Repr

/-- `FlacPcmInputStream`. The session is the list of its answers; at their end it is at the end of
the stream. -/
structure FlacPcmInputStream where
  session : List PullRead
  channels : ℕ
  bitsPerSample : ℕ
  sampleBuffer : List Sample
  byteBuffer : List Byte
  bytePosition : ℕ
  byteLimit : ℕ
  eof : Bool
  closed : Bool
  deriving Repr

namespace FlacPcmInputStream

/-- `DEFAULT_CHUNK_FRAMES`. -/
def defaultChunkFrames : ℕ := 1024

/-- `bytesPerSample`. -/
def bytesPerSample (s : FlacPcmInputStream) : ℕ := (s.bitsPerSample + 7) / 8

/-- The constructor. -/
def new (session : List PullRead) (channels bitsPerSample : ℕ) : FlacPcmInputStream :=
  { session, channels, bitsPerSample
    sampleBuffer := List.replicate (defaultChunkFrames * channels) 0
    byteBuffer := List.replicate (defaultChunkFrames * channels * ((bitsPerSample + 7) / 8)) 0
    bytePosition := 0, byteLimit := 0, eof := false, closed := false }

/-- `session.readInterleaved(sampleBuffer, DEFAULT_CHUNK_FRAMES)`. -/
def readInterleaved (s : FlacPcmInputStream) : PullRead × FlacPcmInputStream :=
  match s.session with
  | [] => (.endOfStream, s)
  | .frames frames samples :: rest =>
    (.frames frames samples,
      { s with session := rest, sampleBuffer := splice samples s.sampleBuffer 0 })
  | answer :: rest => (answer, { s with session := rest })

/-- `fillByteBuffer`. -/
def fillByteBuffer (s : FlacPcmInputStream) : Except SoundException Bool × FlacPcmInputStream :=
  if s.eof then (.ok false, s)
  else
    match s.readInterleaved with
    | (.failed, s) => (.error (.ioException "Failed to decode FLAC PCM."), s)
    | (.endOfStream, s) => (.ok false, { s with eof := true })
    | (.frames 0 _, s) =>
      (.error (.ioException
        "Native FLAC decoder returned no PCM frames for a positive read request."), s)
    | (.frames (frames + 1) _, s) =>
      let samples := (frames + 1) * s.channels
      let output := (s.sampleBuffer.take samples).flatMap (writeLittleEndianSample s.bitsPerSample)
      (.ok true,
        { s with bytePosition := 0, byteLimit := samples * s.bytesPerSample
                 byteBuffer := splice output s.byteBuffer 0 })

/-- The loop of `read(byte[], int, int)`; `none` when the fuel does not suffice. -/
def readLoop (offset length : ℕ) :
    ℕ → FlacPcmInputStream → List Byte → ℕ →
      Option (Except SoundException (ℕ × List Byte)) × FlacPcmInputStream
  | 0, s, _, _ => (none, s)
  | fuel + 1, s, buffer, copied =>
    if copied < length then
      match if s.bytePosition = s.byteLimit then s.fillByteBuffer else (.ok true, s) with
      | (.error e, s) => (some (.error e), s)
      | (.ok false, s) => (some (.ok (copied, buffer)), s)
      | (.ok true, s) =>
        let bytesToCopy := min (length - copied) (s.byteLimit - s.bytePosition)
        readLoop offset length fuel { s with bytePosition := s.bytePosition + bytesToCopy }
          (arraycopy s.byteBuffer s.bytePosition buffer (offset + copied) bytesToCopy)
          (copied + bytesToCopy)
    else (some (.ok (copied, buffer)), s)

/-- `read(byte[], int, int)`: the value returned and the caller's buffer afterwards. -/
def readBuffer (s : FlacPcmInputStream) (buffer : List Byte) (offset length : ℤ) :
    Option (Except SoundException (ℤ × List Byte)) × FlacPcmInputStream :=
  if s.closed then (some (.error (.ioException "The FLAC PCM stream is closed.")), s)
  else if offset < 0 ∨ length < 0 ∨ (buffer.length : ℤ) < offset + length then
    (some (.error .indexOutOfBoundsException), s)
  else if length = 0 then (some (.ok (0, buffer)), s)
  else
    match s.readLoop offset.toNat length.toNat (length.toNat + 1) buffer 0 with
    | (some (.ok (copied, buffer)), s) =>
      (some (.ok (if copied = 0 then -1 else (copied : ℤ), buffer)), s)
    | (some (.error e), s) => (some (.error e), s)
    | (none, s) => (none, s)

/-- `read()`. -/
def readByte (s : FlacPcmInputStream) :
    Option (Except SoundException ℤ) × FlacPcmInputStream :=
  match s.readBuffer [0] 0 1 with
  | (some (.ok (read, oneByte)), s) =>
    (some (.ok (if read = -1 then -1 else ((oneByte.headD 0).toNat : ℤ))), s)
  | (some (.error e), s) => (some (.error e), s)
  | (none, s) => (none, s)

end FlacPcmInputStream

/-! ## What a stream has yet to deliver -/

/-- The little-endian bytes of a row of samples. -/
def encodeSamples (bitsPerSample : ℕ) (samples : List Sample) : List Byte :=
  samples.flatMap (writeLittleEndianSample bitsPerSample)

theorem encodeSamples_append (bits : ℕ) (xs ys : List Sample) :
    encodeSamples bits (xs ++ ys) = encodeSamples bits xs ++ encodeSamples bits ys :=
  List.flatMap_append

theorem length_encodeSamples (bits : ℕ) (samples : List Sample) :
    (encodeSamples bits samples).length = samples.length * ((bits + 7) / 8) := by
  induction samples with
  | nil => simp [encodeSamples]
  | cons sample samples ih =>
    rw [← List.singleton_append, encodeSamples_append, List.length_append, ih, List.length_append,
      Nat.add_mul]
    simp [encodeSamples]

/-- The frames of one answer of the pull session: at least one, at most 1024, each with a sample
for every channel. -/
structure IsChunk (channels : ℕ) (chunk : List (List Sample)) : Prop where
  nonempty : chunk ≠ []
  length_le : chunk.length ≤ FlacPcmInputStream.defaultChunkFrames
  width : HasWidth channels chunk

/-- The answer that delivers a chunk. -/
def chunkRead (chunk : List (List Sample)) : PullRead := .frames chunk.length chunk.flatten

namespace FlacPcmInputStream

/-- The bytes of the buffer that were not read yet. -/
def available (s : FlacPcmInputStream) : List Byte :=
  (s.byteBuffer.take s.byteLimit).drop s.bytePosition

/-- The stream is open and has exactly these bytes yet to deliver. -/
structure Serves (s : FlacPcmInputStream) (bytes : List Byte) : Prop where
  opened : s.closed = false
  position : s.bytePosition ≤ s.byteLimit
  limit : s.byteLimit ≤ s.byteBuffer.length
  sized : 0 < s.channels ∧ 0 < s.bytesPerSample
  pending : ∃ chunks, s.session = chunks.map chunkRead ∧ (∀ c ∈ chunks, IsChunk s.channels c) ∧
    (s.eof = true → chunks = []) ∧
    bytes = s.available ++ encodeSamples s.bitsPerSample chunks.flatten.flatten

variable {s : FlacPcmInputStream} {bytes : List Byte}

theorem Serves.length_available (h : s.Serves bytes) :
    s.available.length = s.byteLimit - s.bytePosition := by
  rw [available, List.length_drop, List.length_take, Nat.min_eq_left h.limit]

/-- A fresh stream has the encoding of all frames to deliver. -/
theorem serves_new {channels bits : ℕ} {chunks : List (List (List Sample))}
    (hchannels : 0 < channels) (hbits : 0 < bits) (hchunks : ∀ c ∈ chunks, IsChunk channels c) :
    (new (chunks.map chunkRead) channels bits).Serves (encodeSamples bits chunks.flatten.flatten) where
  opened := rfl
  position := Nat.le_refl _
  limit := Nat.zero_le _
  sized := ⟨hchannels, by show 0 < (bits + 7) / 8; omega⟩
  pending := ⟨chunks, rfl, hchunks, nofun, by simp [available, new]⟩

theorem readInterleaved_nil (h : s.session = []) : s.readInterleaved = (.endOfStream, s) := by
  rw [readInterleaved, h]

theorem readInterleaved_chunk {chunk : List (List Sample)} {rest : List PullRead}
    (h : s.session = chunkRead chunk :: rest) :
    s.readInterleaved = (chunkRead chunk,
      { s with session := rest, sampleBuffer := splice chunk.flatten s.sampleBuffer 0 }) := by
  rw [readInterleaved, h]
  rfl

/-- The stream after a chunk was encoded into the byte buffer. -/
def filled (s : FlacPcmInputStream) (chunk : List (List Sample)) (rest : List PullRead) :
    FlacPcmInputStream :=
  { s with
    session := rest
    sampleBuffer := splice chunk.flatten s.sampleBuffer 0
    byteBuffer := splice (encodeSamples s.bitsPerSample chunk.flatten) s.byteBuffer 0
    bytePosition := 0
    byteLimit := chunk.length * s.channels * s.bytesPerSample }

theorem fillByteBuffer_chunk {chunk : List (List Sample)} {rest : List PullRead}
    (hopen : s.eof = false) (h : s.session = chunkRead chunk :: rest)
    (hchunk : IsChunk s.channels chunk) :
    s.fillByteBuffer = (.ok true, s.filled chunk rest) := by
  obtain ⟨frames, hframes⟩ : ∃ frames, chunk.length = frames + 1 :=
    ⟨chunk.length - 1, by have := List.length_pos_iff.mpr hchunk.nonempty; omega⟩
  have hsamples : (splice chunk.flatten s.sampleBuffer 0).take (chunk.length * s.channels) =
      chunk.flatten := by
    rw [← hchunk.width.length_flatten]
    exact take_splice_zero _ _
  rw [fillByteBuffer, hopen, if_neg Bool.false_ne_true, readInterleaved_chunk h, chunkRead, hframes]
  dsimp only
  rw [← hframes, hsamples]
  rfl

theorem length_encodeSamples_chunk {channels : ℕ} {chunk : List (List Sample)} (bits : ℕ)
    (hchunk : IsChunk channels chunk) :
    (encodeSamples bits chunk.flatten).length = chunk.length * channels * ((bits + 7) / 8) := by
  rw [length_encodeSamples, hchunk.width.length_flatten]

/-- Refilling an empty buffer changes nothing about what is yet to come; it fails exactly at the
end. -/
theorem fillByteBuffer_spec (h : s.Serves bytes) (hempty : s.bytePosition = s.byteLimit) :
    (bytes = [] ∧ ∃ s', s.fillByteBuffer = (.ok false, s') ∧ s'.Serves bytes) ∨
      ∃ s', s.fillByteBuffer = (.ok true, s') ∧ s'.Serves bytes ∧ s'.bytePosition < s'.byteLimit := by
  obtain ⟨chunks, hsession, hchunks, heof, rfl⟩ := h.pending
  have havailable : s.available = [] := by
    rw [← List.length_eq_zero_iff, h.length_available]
    omega
  rw [havailable, List.nil_append]
  cases chunks with
  | nil =>
    refine Or.inl ⟨rfl, ?_⟩
    cases hend : s.eof with
    | true =>
      refine ⟨s, by rw [fillByteBuffer, hend, if_pos rfl], h.opened, h.position, h.limit, h.sized, ?_⟩
      exact ⟨[], hsession, nofun, fun _ => rfl, by rw [havailable]; rfl⟩
    | false =>
      refine ⟨{ s with eof := true }, ?_, h.opened, h.position, h.limit, h.sized, ?_⟩
      · rw [fillByteBuffer, hend, if_neg Bool.false_ne_true, readInterleaved_nil hsession]
      · exact ⟨[], hsession, nofun, fun _ => rfl, by
          show _ = s.available ++ _
          rw [havailable]
          rfl⟩
  | cons chunk rest =>
    have hchunk := hchunks chunk List.mem_cons_self
    have hopen : s.eof = false := by
      cases hend : s.eof with
      | false => rfl
      | true => exact absurd (heof hend) (List.cons_ne_nil _ _)
    have hsize : (encodeSamples s.bitsPerSample chunk.flatten).length =
        chunk.length * s.channels * s.bytesPerSample := length_encodeSamples_chunk _ hchunk
    have hfilled : (s.filled chunk (rest.map chunkRead)).available =
        encodeSamples s.bitsPerSample chunk.flatten := by
      show ((splice _ _ 0).take (chunk.length * s.channels * s.bytesPerSample)).drop 0 = _
      rw [List.drop_zero, ← hsize]
      exact take_splice_zero _ _
    have hpositive : 0 < chunk.length * s.channels * s.bytesPerSample :=
      Nat.mul_pos (Nat.mul_pos (List.length_pos_iff.mpr hchunk.nonempty) h.sized.1) h.sized.2
    refine Or.inr ⟨s.filled chunk (rest.map chunkRead), fillByteBuffer_chunk hopen hsession hchunk,
      ⟨h.opened, Nat.zero_le _, ?_, h.sized, rest, rfl, fun c hc => ?_, fun he => ?_, ?_⟩, hpositive⟩
    · show chunk.length * s.channels * s.bytesPerSample ≤ (splice _ s.byteBuffer 0).length
      rw [← hsize]
      simp only [splice, List.length_append]
      omega
    · exact hchunks c (List.mem_cons_of_mem _ hc)
    · exact absurd (hopen.symm.trans he) Bool.false_ne_true
    · rw [hfilled, List.flatten_cons, List.flatten_append, encodeSamples_append]
      rfl

/-- Taking bytes out of the buffer is taking them off the front of what is yet to come. -/
theorem Serves.advance (h : s.Serves bytes) {n : ℕ} (hn : n ≤ s.byteLimit - s.bytePosition) :
    (s.byteBuffer.drop s.bytePosition).take n = bytes.take n ∧
      FlacPcmInputStream.Serves { s with bytePosition := s.bytePosition + n } (bytes.drop n) := by
  obtain ⟨chunks, hsession, hchunks, heof, rfl⟩ := h.pending
  have hlength := h.length_available
  have htake : (s.byteBuffer.drop s.bytePosition).take n = s.available.take n := by
    rw [available, List.drop_take, List.take_take, Nat.min_eq_left hn]
  have hposition := h.position
  refine ⟨?_, h.opened, by show s.bytePosition + n ≤ s.byteLimit; omega, h.limit, h.sized, chunks,
    hsession, hchunks, heof, ?_⟩
  · rw [htake, List.take_append_of_le_length (by omega)]
  · rw [List.drop_append_of_le_length (by omega)]
    show _ = (s.byteBuffer.take s.byteLimit).drop (s.bytePosition + n) ++ _
    rw [available, List.drop_drop]

/-- The copy loop delivers the next bytes, as many as asked for or as there are. -/
theorem readLoop_spec {offset length : ℕ} (fuel : ℕ) {buffer : List Byte} {copied : ℕ}
    (h : s.Serves bytes) (hcopied : copied ≤ length) (hbuffer : offset + length ≤ buffer.length)
    (hfuel : length - copied < fuel) :
    ∃ s', s.readLoop offset length fuel buffer copied =
        (some (.ok (copied + (bytes.take (length - copied)).length,
          splice (bytes.take (length - copied)) buffer (offset + copied))), s') ∧
      s'.Serves (bytes.drop (length - copied)) := by
  induction fuel generalizing s bytes buffer copied with
  | zero => omega
  | succ fuel ih =>
    rw [readLoop]
    by_cases hmore : copied < length
    swap
    · rw [if_neg hmore, Nat.sub_eq_zero_of_le (by omega), List.take_zero, splice_nil]
      exact ⟨s, rfl, by rwa [List.drop_zero]⟩
    rw [if_pos hmore]
    -- either the buffer had bytes, or it was refilled, or there is nothing left
    have hfilled : (bytes = [] ∧ ∃ s', (if s.bytePosition = s.byteLimit then s.fillByteBuffer
          else (.ok true, s)) = (.ok false, s') ∧ s'.Serves bytes) ∨
        ∃ s', (if s.bytePosition = s.byteLimit then s.fillByteBuffer else (.ok true, s)) =
          (.ok true, s') ∧ s'.Serves bytes ∧ s'.bytePosition < s'.byteLimit := by
      by_cases hempty : s.bytePosition = s.byteLimit
      · rw [if_pos hempty]
        exact fillByteBuffer_spec h hempty
      · rw [if_neg hempty]
        have hposition := h.position
        exact Or.inr ⟨s, rfl, h, by omega⟩
    rcases hfilled with ⟨rfl, s', hfill, hs'⟩ | ⟨s', hfill, hs', hpositive⟩
    · rw [hfill, List.take_nil, splice_nil]
      exact ⟨s', rfl, by rwa [List.drop_nil]⟩
    · rw [hfill]
      dsimp only
      obtain ⟨hbytes, hnext⟩ := hs'.advance
        (Nat.min_le_right (length - copied) (s'.byteLimit - s'.bytePosition))
      have hlength : (bytes.take (min (length - copied) (s'.byteLimit - s'.bytePosition))).length =
          min (length - copied) (s'.byteLimit - s'.bytePosition) := by
        rw [← hbytes, List.length_take, List.length_drop]
        have hlimit := hs'.limit
        omega
      have hn : 1 ≤ min (length - copied) (s'.byteLimit - s'.bytePosition) := by omega
      have hle := Nat.min_le_left (length - copied) (s'.byteLimit - s'.bytePosition)
      generalize min (length - copied) (s'.byteLimit - s'.bytePosition) = n at *
      have hsplit : bytes.take (length - copied) =
          bytes.take n ++ (bytes.drop n).take (length - (copied + n)) := by
        rw [← List.take_add]
        congr 1
        omega
      have hfits : offset + copied + (bytes.take n).length ≤ buffer.length := by omega
      obtain ⟨t, ht, hserves⟩ := @ih _ _ (splice (bytes.take n) buffer (offset + copied)) (copied + n)
        hnext (by omega) (by rw [length_splice hfits]; exact hbuffer) (by omega)
      refine ⟨t, ?_, ?_⟩
      · rw [arraycopy, hbytes, ht, hsplit, ← splice_splice _ hfits, List.length_append, hlength,
          Nat.add_assoc copied, Nat.add_assoc offset]
      · rw [List.drop_drop] at hserves
        rwa [show n + (length - (copied + n)) = length - copied by omega] at hserves

/-- A bulk read with valid arguments stores the next bytes at its offset and touches nothing else
of the caller's buffer. It returns their number, and -1 when there are none. -/
theorem readBuffer_spec (h : s.Serves bytes) {buffer : List Byte} {offset length : ℕ}
    (hlength : 0 < length) (hbuffer : offset + length ≤ buffer.length) :
    ∃ s', s.readBuffer buffer offset length =
        (some (.ok (if bytes = [] then -1 else ((bytes.take length).length : ℤ),
          splice (bytes.take length) buffer offset)), s') ∧
      s'.Serves (bytes.drop length) := by
  obtain ⟨s', hloop, hs'⟩ :=
    readLoop_spec (length + 1) h (Nat.zero_le length) hbuffer (Nat.lt_succ_self _)
  refine ⟨s', ?_, hs'⟩
  rw [readBuffer, h.opened, if_neg Bool.false_ne_true, if_neg (by omega), if_neg (by omega),
    Int.toNat_natCast, Int.toNat_natCast, hloop]
  dsimp only
  rw [Nat.zero_add, Nat.sub_zero, Nat.add_zero]
  by_cases hempty : bytes = []
  · rw [if_pos hempty, hempty, List.take_nil]
    rfl
  · have hpositive : (bytes.take length).length ≠ 0 := by
      have := List.length_pos_iff.mpr hempty
      rw [List.length_take]
      omega
    rw [if_neg hempty, if_neg hpositive]

/-- A single-byte read delivers the next byte as a number from 0 to 255, and -1 at the end. -/
theorem readByte_spec (h : s.Serves bytes) :
    ∃ s', s.readByte =
        (some (.ok (match bytes with | [] => -1 | b :: _ => (b.toNat : ℤ))), s') ∧
      s'.Serves (bytes.drop 1) := by
  have honeByte : 0 + 1 ≤ ([0] : List Byte).length := Nat.le_refl _
  obtain ⟨s', hread, hs'⟩ := readBuffer_spec h Nat.one_pos honeByte
  refine ⟨s', ?_, hs'⟩
  rw [Nat.cast_zero, Nat.cast_one] at hread
  rw [readByte, hread]
  cases bytes with
  | nil => rfl
  | cons b bytes => rfl

/-! ## Sequences of reads -/

/-- One call of a reader of the stream. -/
inductive ReadCall where
  | byte
  | bulk (buffer : List Byte) (offset length : ℤ)
  deriving DecidableEq, Repr

/-- What the caller got: the bytes handed over and whether the call returned -1. -/
structure Handed where
  bytes : List Byte
  ended : Bool
  deriving DecidableEq, Repr

/-- A bulk read whose arguments do not describe a part of its buffer. -/
def ReadCall.Invalid : ReadCall → Prop
  | .byte => False
  | .bulk buffer offset length => offset < 0 ∨ length < 0 ∨ (buffer.length : ℤ) < offset + length

instance (call : ReadCall) : Decidable call.Invalid := by
  cases call <;> unfold ReadCall.Invalid <;> infer_instance

/-- The number of bytes a call asks for; a rejected one asks for none. -/
def ReadCall.requested (call : ReadCall) : ℕ :=
  match call with
  | .byte => 1
  | .bulk _ _ length => if call.Invalid then 0 else length.toNat

/-- Makes one call: the bytes are those found in the caller's buffer, as many as the call reports. -/
def perform (s : FlacPcmInputStream) :
    ReadCall → Option (Except SoundException Handed) × FlacPcmInputStream
  | .byte =>
    match s.readByte with
    | (some (.ok value), s) =>
      (some (.ok (if value = -1 then ⟨[], true⟩ else ⟨[BitVec.ofInt 8 value], false⟩)), s)
    | (some (.error e), s) => (some (.error e), s)
    | (none, s) => (none, s)
  | .bulk buffer offset length =>
    match s.readBuffer buffer offset length with
    | (some (.ok (count, buffer)), s) =>
      (some (.ok ⟨(buffer.drop offset.toNat).take count.toNat, decide (count = -1)⟩), s)
    | (some (.error e), s) => (some (.error e), s)
    | (none, s) => (none, s)

/-- Makes calls one after the other. -/
def performAll (s : FlacPcmInputStream) :
    List ReadCall → List (Option (Except SoundException Handed)) × FlacPcmInputStream
  | [] => ([], s)
  | call :: calls =>
    let first := s.perform call
    let rest := first.2.performAll calls
    (first.1 :: rest.1, rest.2)

/-- What a call hands over when these bytes are yet to come. -/
def expected (bytes : List Byte) (call : ReadCall) : Except SoundException Handed :=
  if call.Invalid then .error .indexOutOfBoundsException
  else .ok ⟨bytes.take call.requested, decide (0 < call.requested ∧ bytes = [])⟩

/-- Every call hands over the bytes that come next. -/
theorem perform_spec (h : s.Serves bytes) (call : ReadCall) :
    ∃ s', s.perform call = (some (expected bytes call), s') ∧
      s'.Serves (bytes.drop call.requested) := by
  cases call with
  | byte =>
    obtain ⟨s', hread, hs'⟩ := readByte_spec h
    refine ⟨s', ?_, hs'⟩
    rw [perform, hread]
    cases bytes with
    | nil => rfl
    | cons b bytes =>
      dsimp only
      rw [if_neg (by omega), expected, if_neg (show ¬ ReadCall.byte.Invalid from id)]
      have hbyte : BitVec.ofInt 8 (b.toNat : ℤ) = b := by
        rw [BitVec.ofInt_natCast, BitVec.ofNat_toNat, BitVec.setWidth_eq]
      rw [hbyte]
      simp [ReadCall.requested]
  | bulk buffer offset length =>
    rw [perform]
    by_cases hinvalid : (ReadCall.bulk buffer offset length).Invalid
    · refine ⟨s, ?_, ?_⟩
      · have hbad : offset < 0 ∨ length < 0 ∨ (buffer.length : ℤ) < offset + length := hinvalid
        rw [readBuffer, h.opened, if_neg Bool.false_ne_true, if_pos hbad, expected, if_pos hinvalid]
      · rwa [ReadCall.requested, if_pos hinvalid, List.drop_zero]
    rw [expected, if_neg hinvalid, ReadCall.requested, if_neg hinvalid]
    obtain ⟨hoffset, hlength, hfits⟩ : 0 ≤ offset ∧ 0 ≤ length ∧ offset + length ≤ buffer.length := by
      simpa only [ReadCall.Invalid, not_or, not_lt] using hinvalid
    lift offset to ℕ using hoffset
    lift length to ℕ using hlength
    rw [Int.toNat_natCast, Int.toNat_natCast]
    rcases Nat.eq_zero_or_pos length with rfl | hpositive
    · refine ⟨s, ?_, by rwa [List.drop_zero]⟩
      rw [readBuffer, h.opened, if_neg Bool.false_ne_true, if_neg (by omega), if_pos Nat.cast_zero]
      simp
    · obtain ⟨s', hread, hs'⟩ := readBuffer_spec h hpositive (by exact_mod_cast hfits)
      refine ⟨s', ?_, hs'⟩
      rw [hread]
      dsimp only
      by_cases hempty : bytes = []
      · subst hempty
        simp [hpositive]
      · have hcount : ((bytes.take length).length : ℤ) ≠ -1 := by omega
        rw [if_neg hempty, Int.toNat_natCast, take_drop_splice (by omega), decide_eq_false hcount,
          decide_eq_false fun h => hempty h.2]

/-- The bytes all calls together handed over. -/
def delivered (outcomes : List (Option (Except SoundException Handed))) : List Byte :=
  outcomes.flatMap fun
    | some (.ok handed) => handed.bytes
    | _ => []

/-- The number of bytes the calls ask for. -/
def requestedBy (calls : List ReadCall) : ℕ := (calls.map ReadCall.requested).sum

theorem bytes_expected (bytes : List Byte) (call : ReadCall) :
    delivered [some (expected bytes call)] = bytes.take call.requested := by
  rw [expected]
  by_cases hinvalid : call.Invalid
  · rw [if_pos hinvalid]
    cases call with
    | byte => exact hinvalid.elim
    | bulk buffer offset length =>
      rw [ReadCall.requested, if_pos hinvalid]
      rfl
  · rw [if_neg hinvalid]
    exact List.append_nil _

/-- After some calls the stream has the rest yet to deliver. -/
theorem performAll_serves (h : s.Serves bytes) (calls : List ReadCall) :
    (s.performAll calls).2.Serves (bytes.drop (requestedBy calls)) := by
  induction calls generalizing s bytes with
  | nil => exact h
  | cons call calls ih =>
    obtain ⟨s', hcall, hs'⟩ := perform_spec h call
    rw [performAll, hcall]
    have hrest := ih hs'
    rwa [List.drop_drop] at hrest

/-- All calls together hand over a prefix of what is yet to come, as long as they ask for. -/
theorem delivered_performAll (h : s.Serves bytes) (calls : List ReadCall) :
    delivered (s.performAll calls).1 = bytes.take (requestedBy calls) := by
  induction calls generalizing s bytes with
  | nil => rfl
  | cons call calls ih =>
    obtain ⟨s', hcall, hs'⟩ := perform_spec h call
    rw [performAll, hcall]
    show delivered ([some (expected bytes call)] ++ (s'.performAll calls).1) = _
    rw [delivered, List.flatMap_append, ← delivered, ← delivered, bytes_expected, ih hs',
      ← List.take_add]
    rfl

/-- Once a call returned -1, everything was handed over. -/
theorem delivered_of_ended (h : s.Serves bytes) (calls : List ReadCall)
    (hended : some (.ok ⟨[], true⟩) ∈ (s.performAll calls).1) :
    delivered (s.performAll calls).1 = bytes := by
  rw [delivered_performAll h]
  refine List.take_of_length_le ?_
  induction calls generalizing s bytes with
  | nil => simp [performAll] at hended
  | cons call calls ih =>
    obtain ⟨s', hcall, hs'⟩ := perform_spec h call
    rw [performAll, hcall] at hended
    have hsum : requestedBy (call :: calls) = call.requested + requestedBy calls := by
      simp [requestedBy]
    rcases List.mem_cons.mp hended with hfirst | hrest
    · obtain ⟨-, hempty⟩ : 0 < call.requested ∧ bytes = [] := by
        rw [expected] at hfirst
        by_cases hinvalid : call.Invalid
        · simp [hinvalid] at hfirst
        · rw [if_neg hinvalid] at hfirst
          have hflag : true = decide (0 < call.requested ∧ bytes = []) :=
            congrArg Handed.ended (Except.ok.inj (Option.some.inj hfirst))
          exact of_decide_eq_true hflag.symm
      rw [hempty]
      exact Nat.zero_le _
    · have htail := ih hs' hrest
      rw [List.length_drop] at htail
      omega

end FlacPcmInputStream

end JFlac.Sound
