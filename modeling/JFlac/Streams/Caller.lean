import JFlac.Lib.Bytes
import JFlac.Lib.Source

/-!
# Streams and channels of the caller

What the wrapper knows of an `InputStream` or a `SeekableByteChannel` it did not write: a read of a
positive length brings at least one byte and at most as many as were asked for, reports the end
when there are none left, or throws. How many bytes each read brings is up to the caller's object,
and so is whether it throws (`Portions`).

A mark-capable stream honours its mark limit exactly: it can be reset as long as no more bytes than
the limit were read since the mark.
-/

namespace JFlac.Streams

open Lib

/-! ## Magic bytes -/

/-- `FLAC_MAGIC`. -/
def flacMagic : List Byte := [0x66, 0x4c, 0x61, 0x43]

/-- `OGG_MAGIC`, which is `byteArrayOf(0x4f, 0x67, 0x67, 0x53)` in the loader. -/
def oggMagic : List Byte := [0x4f, 0x67, 0x67, 0x53]

/-! ## Portions -/

/-- How much each read brings, and which reads throw. -/
structure Portions (ε : Type) where
  sizes : ℕ → ℕ
  failures : ℕ → Option ε

/-- Short reads, none of which throws. -/
def Portions.short {ε : Type} (sizes : ℕ → ℕ) : Portions ε := ⟨sizes, fun _ => none⟩

/-- The largest number of bytes the `i`-th read brings when asked for `n`. -/
def Portions.size {ε : Type} (portions : Portions ε) (i n : ℕ) : ℕ :=
  max 1 (min (portions.sizes i) n)

theorem Portions.size_pos {ε : Type} (portions : Portions ε) (i n : ℕ) :
    0 < portions.size i n := by
  unfold Portions.size
  omega

theorem Portions.size_le {ε : Type} (portions : Portions ε) (i : ℕ) {n : ℕ} (hn : 0 < n) :
    portions.size i n ≤ n := by
  unfold Portions.size
  omega

/-- What a read brings of the bytes that are left. -/
def Portions.answer {ε : Type} (portions : Portions ε) (rest : List Byte) (i n : ℕ) :
    ReadAnswer ε Byte :=
  match portions.failures i with
  | some e => .raised e
  | none => if rest = [] then .ended else .data (rest.take (portions.size i n))

theorem Portions.length_answer_le {ε : Type} (portions : Portions ε) (rest : List Byte) (i : ℕ)
    {n : ℕ} (hn : 0 < n) : (portions.answer rest i n).elements.length ≤ n := by
  unfold Portions.answer
  split
  · exact Nat.zero_le n
  split
  · exact Nat.zero_le n
  · rw [ReadAnswer.elements, List.length_take]
    exact (Nat.min_le_left _ _).trans (portions.size_le i hn)

/-- Reads from an object with the given bytes left, which counts its reads and moves on by the bytes
it brings. -/
def Portions.read {ε σ : Type} (portions : Portions ε) (rest : σ → List Byte) (reads : σ → ℕ)
    (advance : σ → ℕ → σ) : Reader ε Byte σ
  | s, request =>
    if request.size = 0 then (.data [], s)
    else
      let answer := portions.answer (rest s) (reads s) request.size
      (answer, advance s answer.elements.length)

section

variable {ε σ : Type} {rest : σ → List Byte} {reads : σ → ℕ} {advance : σ → ℕ → σ}

theorem Portions.read_of_pos (portions : Portions ε) (s : σ) {request : ReadRequest}
    (h : 0 < request.size) :
    portions.read rest reads advance s request =
      (portions.answer (rest s) (reads s) request.size,
        advance s (portions.answer (rest s) (reads s) request.size).elements.length) := by
  rw [Portions.read, if_neg (Nat.pos_iff_ne_zero.mp h)]

/-- An object that never throws is a source. -/
def shortSource (ε : Type) (sizes : ℕ → ℕ) (rest : σ → List Byte) (reads : σ → ℕ)
    (advance : σ → ℕ → σ) (hadvance : ∀ s n, rest (advance s n) = (rest s).drop n) :
    Source ε Byte σ where
  read := (Portions.short sizes).read rest reads advance
  pending := rest
  read_zero s := by rw [Portions.read, if_pos (by rfl)]
  read_nil s request hsize hpending := by
    rw [Portions.read_of_pos _ s hsize, hadvance, hpending]
    exact ⟨by simp [Portions.answer, Portions.short], List.drop_nil⟩
  read_cons s request hsize hpending := by
    have hanswer : (Portions.short (ε := ε) sizes).answer (rest s) (reads s) request.size =
        .data ((rest s).take ((Portions.short (ε := ε) sizes).size (reads s) request.size)) :=
      if_neg hpending
    have hlength : 0 < (rest s).length := List.length_pos_iff.mpr hpending
    have hpos := (Portions.short (ε := ε) sizes).size_pos (reads s) request.size
    have hle := (Portions.short (ε := ε) sizes).size_le (reads s) hsize
    rw [Portions.read_of_pos _ s hsize, hanswer, hadvance]
    generalize (Portions.short (ε := ε) sizes).size (reads s) request.size = n at hpos hle
    refine ⟨min n (rest s).length, by omega, by omega, Nat.min_le_right _ _, ?_, ?_⟩
    · rw [ReadAnswer.data.injEq, ← List.take_eq_take_min]
    · rw [ReadAnswer.elements, List.length_take]

end

/-! ## Streams -/

/-- What was done to a stream. -/
inductive StreamCall where
  | mark (limit : ℕ)
  | reset (success : Bool)
  | read (bytes : ℕ)
  deriving DecidableEq, Repr

/-- A stream of the caller. `restarts` tells the two ways to count the bytes read since the mark: a
stream that goes back to the mark counts them anew, or it goes on counting. -/
structure CallerStream where
  content : List Byte
  position : ℕ
  /-- The marked position and its read limit. -/
  marked : Option (ℕ × ℕ)
  readSinceMark : ℕ
  restarts : Bool
  reads : ℕ
  calls : List StreamCall
  deriving DecidableEq, Repr

namespace CallerStream

variable {ε : Type}

/-- The bytes not read yet. -/
def rest (s : CallerStream) : List Byte := s.content.drop s.position

/-- `mark(readlimit)`. -/
def mark (limit : ℕ) (s : CallerStream) : CallerStream :=
  { s with
    marked := some (s.position, limit)
    readSinceMark := 0
    calls := s.calls ++ [.mark limit] }

/-- `reset()`; `false` is the `IOException` of a stream whose mark is gone. -/
def reset (s : CallerStream) : Bool × CallerStream :=
  match s.marked with
  | none => (false, { s with calls := s.calls ++ [.reset false] })
  | some (position, limit) =>
    if s.readSinceMark ≤ limit then
      (true,
        { s with
          position := position
          readSinceMark := if s.restarts then 0 else s.readSinceMark
          calls := s.calls ++ [.reset true] })
    else (false, { s with calls := s.calls ++ [.reset false] })

/-- The stream after a read that brought `count` bytes. -/
def advance (s : CallerStream) (count : ℕ) : CallerStream :=
  { s with
    position := s.position + count
    readSinceMark := s.readSinceMark + count
    reads := s.reads + 1
    calls := s.calls ++ [.read count] }

theorem rest_advance (s : CallerStream) (count : ℕ) :
    (s.advance count).rest = s.rest.drop count := by
  rw [rest, rest, List.drop_drop]
  rfl

/-- `read()` and `read(byte[], int, int)`. -/
def read (portions : Portions ε) : Reader ε Byte CallerStream :=
  portions.read rest reads advance

/-- A stream that never throws is a source. -/
def source (ε : Type) (sizes : ℕ → ℕ) : Source ε Byte CallerStream :=
  shortSource ε sizes rest reads advance rest_advance

/-- The reads between two states of a stream, each with the bytes it brought. -/
structure ReadsFrom (s : CallerStream) (counts : List ℕ) (s' : CallerStream) : Prop where
  content : s'.content = s.content
  position : s'.position = s.position + counts.sum
  marked : s'.marked = s.marked
  restarts : s'.restarts = s.restarts
  readSinceMark : s'.readSinceMark = s.readSinceMark + counts.sum
  calls : s'.calls = s.calls ++ counts.map .read

namespace ReadsFrom

variable {s t u : CallerStream} {counts more : List ℕ}

theorem refl (s : CallerStream) : ReadsFrom s [] s :=
  ⟨rfl, rfl, rfl, rfl, rfl, (List.append_nil _).symm⟩

theorem trans (h : ReadsFrom s counts t) (h' : ReadsFrom t more u) :
    ReadsFrom s (counts ++ more) u where
  content := h'.content.trans h.content
  position := by rw [h'.position, h.position, List.sum_append, Nat.add_assoc]
  marked := h'.marked.trans h.marked
  restarts := h'.restarts.trans h.restarts
  readSinceMark := by rw [h'.readSinceMark, h.readSinceMark, List.sum_append, Nat.add_assoc]
  calls := by rw [h'.calls, h.calls, List.map_append, List.append_assoc]

/-- The bytes that are left are those the reads did not bring. -/
theorem rest (h : ReadsFrom s counts t) : t.rest = s.rest.drop counts.sum := by
  rw [CallerStream.rest, h.content, h.position, CallerStream.rest, List.drop_drop]

end ReadsFrom

/-- A read brings at most as many bytes as were asked for. -/
theorem length_read_le (portions : Portions ε) (s : CallerStream) (request : ReadRequest) :
    (read portions s request).1.elements.length ≤ request.size := by
  by_cases hsize : 0 < request.size
  · rw [read, Portions.read_of_pos portions s hsize]
    exact portions.length_answer_le s.rest s.reads hsize
  · rw [read, Portions.read, if_pos (by omega)]
    exact Nat.zero_le _

/-- A read moves the stream on by what it brings. -/
theorem readsFrom_read (portions : Portions ε) (s : CallerStream) (request : ReadRequest) :
    ∃ counts, ReadsFrom s counts (read portions s request).2 ∧
      counts.sum = (read portions s request).1.elements.length := by
  by_cases hsize : 0 < request.size
  · rw [read, Portions.read_of_pos portions s hsize]
    exact ⟨[_], ⟨rfl, rfl, rfl, rfl, rfl, rfl⟩, Nat.add_zero _⟩
  · rw [read, Portions.read, if_pos (by omega)]
    exact ⟨[], ReadsFrom.refl s, rfl⟩

/-- A read brings the next bytes. -/
theorem elements_read (portions : Portions ε) (s : CallerStream) (request : ReadRequest) :
    (read portions s request).1.elements =
      s.rest.take (read portions s request).1.elements.length := by
  by_cases hsize : 0 < request.size
  · rw [read, Portions.read_of_pos portions s hsize]
    dsimp only [Portions.answer]
    split
    · rfl
    split
    · rfl
    · rw [ReadAnswer.elements, List.length_take, ← List.take_eq_take_min]
  · rw [read, Portions.read, if_pos (by omega)]
    rfl

/-- A read of a positive length never brings an empty portion. -/
theorem read_ne_nil (portions : Portions ε) (s : CallerStream) {n : ℕ} (hn : 0 < n) :
    (read portions s (.upTo n)).1 ≠ .data [] := by
  rw [read, Portions.read_of_pos portions s (show 0 < (ReadRequest.upTo n).size from hn)]
  intro hanswer
  have hpos := portions.size_pos s.reads n
  dsimp only [Portions.answer, ReadRequest.size] at hanswer
  split at hanswer
  · contradiction
  split at hanswer
  · contradiction
  · rename_i hrest
    have hnil := ReadAnswer.data.inj hanswer
    rw [List.take_eq_nil_iff] at hnil
    exact hnil.elim (by omega) hrest

end CallerStream

/-! ## Channels -/

/-- A channel of the caller. -/
structure CallerChannel where
  content : List Byte
  position : ℕ
  reads : ℕ
  deriving DecidableEq, Repr

namespace CallerChannel

variable {ε : Type}

/-- The bytes behind the position. -/
def rest (c : CallerChannel) : List Byte := c.content.drop c.position

/-- `position(newPosition)`. -/
def setPosition (position : ℕ) (c : CallerChannel) : CallerChannel := { c with position := position }

/-- The channel after a read that brought `count` bytes. -/
def advance (c : CallerChannel) (count : ℕ) : CallerChannel :=
  { c with position := c.position + count, reads := c.reads + 1 }

theorem rest_advance (c : CallerChannel) (count : ℕ) :
    (c.advance count).rest = c.rest.drop count := by
  rw [rest, rest, List.drop_drop]
  rfl

/-- `read(ByteBuffer)`, for the bytes remaining in the buffer. -/
def read (portions : Portions ε) : Reader ε Byte CallerChannel :=
  portions.read rest reads advance

/-- A channel that never throws is a source. -/
def source (ε : Type) (sizes : ℕ → ℕ) : Source ε Byte CallerChannel :=
  shortSource ε sizes rest reads advance rest_advance

end CallerChannel

end JFlac.Streams
