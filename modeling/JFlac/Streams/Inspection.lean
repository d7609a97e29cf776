import JFlac.Streams.Caller

/-!
# Inspecting the container

Before control crosses into the native library the wrapper looks at the first four bytes of a
source: `OggS` goes to the Ogg decoder, everything else to the native one. Paths, streams and
channels are inspected by three pieces of code, and a stream is handed on so that the decoder sees
its first bytes again. The Java Sound module puts them back with a class of its own.
-/

namespace JFlac.Streams

open Lib

/-- What an inspection throws, or a read of the source under it. -/
inductive InspectionException where
  | flacDecodeException (message : String)
  | ioException (identity : ℕ)
  | other (identity : ℕ)
  deriving DecidableEq, Repr

/-- `NativeFlacContainer`. -/
inductive NativeFlacContainer where
  | native
  | ogg
  deriving DecidableEq, Repr

/-- `magic.size`. -/
def magicSize : ℕ := 4

/-- `ByteArray(4)` with the bytes read into it. -/
def magicArray (read : List Byte) : List Byte := read ++ List.replicate (magicSize - read.length) 0

/-- `detectNativeFlacContainer`. -/
def detectNativeFlacContainer (magic : List Byte) (bytesRead : ℤ) : NativeFlacContainer :=
  if bytesRead = 4 ∧ magic = oggMagic then .ogg else .native

/-- The `catch` clause of the inspections: an `IOException` is wrapped. -/
def wrapIOException (message : String) : InspectionException → InspectionException
  | .ioException _ => .flacDecodeException message
  | e => e

variable {σ : Type}

/-! ## The three inspections -/

/-- `readMagic`; the number of bytes read is the length of what it returns. -/
def readMagic (read : Reader InspectionException Byte σ) (rounds : ℕ) (input : σ) :
    Option (Except InspectionException (List Byte)) × σ :=
  collect none read magicSize rounds [] input

/-- `inspectNativeFlacPath`, on the contents of the regular file at the path, if there is one. One
read is made of the file. -/
def inspectNativeFlacPath (portions : Portions InspectionException) (file : Option (List Byte)) :
    Except InspectionException NativeFlacContainer :=
  match file with
  | none =>
    .error (.flacDecodeException "FLAC file does not exist or is not a regular file.")
  | some content =>
    match portions.answer content 0 magicSize with
    | .data magic => .ok (detectNativeFlacContainer (magicArray magic) magic.length)
    | .ended => .ok (detectNativeFlacContainer (magicArray []) (-1))
    | .raised e => .error (wrapIOException "Failed to inspect FLAC file." e)

/-- The result of `inspectNativeFlacStream` once the magic is read. -/
def classify (magic : List Byte) : NativeFlacContainer :=
  detectNativeFlacContainer (magicArray magic) magic.length

/-- The message of a failed stream inspection. -/
def streamMessage : String := "Failed to inspect FLAC stream."

/-- `inspectNativeFlacStream` for a mark-capable stream, which is handed on itself. -/
def inspectMarkedStream (portions : Portions InspectionException) (rounds : ℕ)
    (input : CallerStream) :
    Option (Except InspectionException NativeFlacContainer) × CallerStream :=
  match readMagic (CallerStream.read portions) rounds (input.mark magicSize) with
  | (none, input) => (none, input)
  | (some (.error e), input) => (some (.error (wrapIOException streamMessage e)), input)
  | (some (.ok magic), input) =>
    match input.reset with
    | (true, input) => (some (.ok (classify magic)), input)
    | (false, input) => (some (.error (.flacDecodeException streamMessage)), input)

/-- A `PushbackInputStream`: the bytes pushed back, from `pos` on, and the stream behind them. -/
abbrev PushbackInputStream (σ : Type) := Prefixed Byte σ

namespace PushbackInputStream

/-- `PushbackInputStream.read`. -/
def read (delegate : Reader InspectionException Byte σ) :
    Reader InspectionException Byte (PushbackInputStream σ) :=
  readPrefixed delegate

/-- `unread(bytes)` into a buffer of the given size; `false` is the `IOException` of a full one. -/
def unread (size : ℕ) (bytes : List Byte) (s : PushbackInputStream σ) :
    Bool × PushbackInputStream σ :=
  if s.front.length + bytes.length ≤ size then (true, { s with front := bytes ++ s.front })
  else (false, s)

end PushbackInputStream

/-- `inspectNativeFlacStream` for a stream without mark support, which is handed on behind the bytes
pushed back. -/
def inspectUnmarkedStream (read : Reader InspectionException Byte σ) (rounds : ℕ) (input : σ) :
    Option (Except InspectionException NativeFlacContainer) × PushbackInputStream σ :=
  match readMagic (PushbackInputStream.read read) rounds ⟨[], input⟩ with
  | (none, pushback) => (none, pushback)
  | (some (.error e), pushback) => (some (.error (wrapIOException streamMessage e)), pushback)
  | (some (.ok magic), pushback) =>
    if 0 < magic.length then
      match pushback.unread magicSize magic with
      | (true, pushback) => (some (.ok (classify magic)), pushback)
      | (false, pushback) => (some (.error (.flacDecodeException streamMessage)), pushback)
    else (some (.ok (classify magic)), pushback)

/-- The exception of a channel that brings nothing. -/
def noProgress : InspectionException :=
  .flacDecodeException ("FLAC channel made no progress while reading its header. " ++
    "Use a channel that provides blocking reads.")

/-- The loop of `inspectNativeFlacChannel`, which fills the buffer. -/
def fillMagic (read : Reader InspectionException Byte σ) (rounds : ℕ) (channel : σ) :
    Option (Except InspectionException (List Byte)) × σ :=
  collect (some noProgress) read magicSize rounds [] channel

/-- `inspectNativeFlacChannel`. -/
def inspectNativeFlacChannel (portions : Portions InspectionException) (rounds : ℕ)
    (channel : CallerChannel) :
    Option (Except InspectionException NativeFlacContainer) × CallerChannel :=
  let originalPosition := channel.position
  match fillMagic (CallerChannel.read portions) rounds channel with
  | (none, channel) => (none, channel)
  | (some (.error e), channel) =>
    (some (.error (wrapIOException "Failed to inspect FLAC channel." e)),
      channel.setPosition originalPosition)
  | (some (.ok magic), channel) =>
    (some (.ok (classify magic)), channel.setPosition originalPosition)

/-! ## Replaying in Java Sound -/

/-- A `ReplayPrefixInputStream`: its saved bytes from `position` on, and its delegate. -/
abbrev ReplayPrefixInputStream (σ : Type) := Prefixed Byte σ

/-- `ReplayPrefixInputStream.read`. -/
def ReplayPrefixInputStream.read (delegate : Reader InspectionException Byte σ) :
    Reader InspectionException Byte (ReplayPrefixInputStream σ) :=
  readPrefixed delegate

/-- `stream.readNBytes(FLAC_HEADER_BYTES)` and the stream that `checkedStream` hands on. -/
def replayHeader (read : Reader InspectionException Byte σ) (rounds : ℕ) (stream : σ) :
    Option (Except InspectionException (ReplayPrefixInputStream σ)) :=
  match collect none read 4 rounds [] stream with
  | (none, _) => none
  | (some (.error e), _) => some (.error e)
  | (some (.ok header), stream) => some (.ok ⟨header, stream⟩)

/-! ## What the first bytes say -/

/-- The container of a source, by its contents. -/
def containerOf (bytes : List Byte) : NativeFlacContainer :=
  if bytes.take 4 = oggMagic then .ogg else .native

theorem magicArray_of_length {magic : List Byte} (h : magic.length = 4) :
    magicArray magic = magic := by
  rw [magicArray, h]
  exact List.append_nil magic

/-- With all the bytes there are, up to four, the classification is that of the contents. -/
theorem classify_take (bytes : List Byte) : classify (bytes.take 4) = containerOf bytes := by
  unfold classify detectNativeFlacContainer containerOf
  by_cases hlength : (bytes.take 4).length = 4
  · rw [magicArray_of_length hlength, hlength]
    simp
  · have hogg : bytes.take 4 ≠ oggMagic := fun h => hlength (by rw [h]; rfl)
    rw [if_neg hogg, if_neg]
    rintro ⟨hread, -⟩
    exact hlength (by exact_mod_cast hread)

/-- With fewer than four bytes a source counts as native. -/
theorem classify_of_length_lt {magic : List Byte} (h : magic.length < 4) :
    classify magic = .native := by
  unfold classify detectNativeFlacContainer
  rw [if_neg]
  rintro ⟨hread, -⟩
  omega

/-- Reading the magic of a source takes its first four bytes, or all it has. -/
theorem readMagic_eq (source : Source InspectionException Byte σ) {rounds : ℕ}
    (hrounds : magicSize < rounds) (s : σ) :
    ∃ s', readMagic source.read rounds s = (some (.ok ((source.pending s).take 4)), s') ∧
      source.pending s' = (source.pending s).drop 4 := by
  obtain ⟨s', hcollect, hpending⟩ := source.collect_eq none [] s hrounds
  exact ⟨s', hcollect, hpending⟩

/-! ## Each inspection -/

/-- The container the path inspection sees: one read may bring fewer than four bytes. -/
theorem inspectNativeFlacPath_eq (sizes : ℕ → ℕ) (bytes : List Byte) :
    inspectNativeFlacPath (.short sizes) (some bytes) =
      .ok (classify (bytes.take ((Portions.short (ε := InspectionException) sizes).size 0 4))) := by
  unfold inspectNativeFlacPath Portions.answer
  by_cases hempty : bytes = []
  · subst hempty
    simp [Portions.short, classify, detectNativeFlacContainer]
  · simp only [Portions.short, if_neg hempty]
    rfl

/-- What is known of a marked stream while its magic is read. -/
structure ReadingMagic (start : CallerStream) (got : List Byte) (s : CallerStream) : Prop where
  content : s.content = start.content
  marked : s.marked = some (start.position, magicSize)
  read : s.readSinceMark = got.length
  bounded : got.length ≤ magicSize

theorem ReadingMagic.step {start s : CallerStream} {got : List Byte}
    (portions : Portions InspectionException) (hfull : got.length < magicSize)
    (h : ReadingMagic start got s) :
    ReadingMagic start
      (got ++ (CallerStream.read portions s (.upTo (magicSize - got.length))).1.elements)
      (CallerStream.read portions s (.upTo (magicSize - got.length))).2 := by
  have hsize : 0 < (ReadRequest.upTo (magicSize - got.length)).size := by
    show 0 < magicSize - got.length
    omega
  have hlength := portions.length_answer_le s.rest s.reads hsize
  change _ ≤ magicSize - got.length at hlength
  rw [CallerStream.read, Portions.read_of_pos portions s hsize]
  refine ⟨h.content, h.marked, ?_, ?_⟩
  · rw [List.length_append, ← h.read]
    rfl
  · rw [List.length_append]
    dsimp only [ReadRequest.size] at hlength ⊢
    omega

theorem readMagic_marked (portions : Portions InspectionException) (rounds : ℕ)
    (s : CallerStream) :
    ∃ got, ReadingMagic s got
      (readMagic (CallerStream.read portions) rounds (s.mark magicSize)).2 := by
  have hstart : ReadingMagic s [] (s.mark magicSize) := ⟨rfl, rfl, rfl, Nat.zero_le _⟩
  obtain ⟨got, hgot, -⟩ := collect_invariant none (ReadingMagic s) (CallerStream.read portions)
    (fun got t hfull h => h.step portions hfull) rounds hstart
  exact ⟨got, hgot⟩

/-- A mark-capable stream is classified by its contents and handed on where it was. -/
theorem inspectMarkedStream_eq (sizes : ℕ → ℕ) {rounds : ℕ} (hrounds : magicSize < rounds)
    (s : CallerStream) :
    ∃ s', inspectMarkedStream (.short sizes) rounds s = (some (.ok (containerOf s.rest)), s') ∧
      s'.position = s.position ∧ s'.content = s.content := by
  obtain ⟨got, hreading⟩ := readMagic_marked (.short sizes) rounds s
  obtain ⟨t, hmagic, -⟩ := readMagic_eq (CallerStream.source InspectionException sizes) hrounds
    (s.mark magicSize)
  change readMagic (CallerStream.read (.short sizes)) rounds (s.mark magicSize) =
    (some (.ok (s.rest.take 4)), t) at hmagic
  rw [hmagic] at hreading
  have hlimit : t.readSinceMark ≤ magicSize := by
    rw [hreading.read]
    exact hreading.bounded
  unfold inspectMarkedStream
  rw [hmagic]
  dsimp only
  rw [CallerStream.reset, hreading.marked]
  dsimp only
  rw [if_pos hlimit, classify_take]
  exact ⟨_, rfl, rfl, hreading.content⟩

/-- The bytes pushed back are put in front of an empty buffer. -/
theorem front_readMagic (read : Reader InspectionException Byte σ) (rounds : ℕ) (s : σ) :
    (readMagic (PushbackInputStream.read read) rounds ⟨[], s⟩).2.front = [] := by
  have hstep : ∀ (got : List Byte) (t : PushbackInputStream σ), got.length < magicSize →
      t.front = [] →
      (PushbackInputStream.read read t (.upTo (magicSize - got.length))).2.front = [] := by
    rintro got ⟨front, rest⟩ - rfl
    exact front_readPrefixed read rest _
  obtain ⟨_, hfront, -⟩ := collect_invariant none
    (fun (_ : List Byte) (t : PushbackInputStream σ) => t.front = [])
    (PushbackInputStream.read read) hstep rounds (show (⟨[], s⟩ : PushbackInputStream σ).front = []
      from rfl)
  exact hfront

/-- Whatever is behind it, a stream without mark support is classified by its contents and delivers
them again. -/
theorem inspectUnmarkedStream_eq (source : Source InspectionException Byte σ) {rounds : ℕ}
    (hrounds : magicSize < rounds) (s : σ) :
    ∃ s', inspectUnmarkedStream source.read rounds s =
        (some (.ok (containerOf (source.pending s))), s') ∧
      source.prefixed.pending s' = source.pending s := by
  obtain ⟨⟨front, rest⟩, hmagic, hpending⟩ := readMagic_eq source.prefixed hrounds ⟨[], s⟩
  change readMagic (PushbackInputStream.read source.read) rounds ⟨[], s⟩ =
    (some (.ok ((source.pending s).take 4)), ⟨front, rest⟩) at hmagic
  have hfront := front_readMagic source.read rounds s
  rw [hmagic] at hfront
  obtain rfl : front = [] := hfront
  change source.pending rest = (source.pending s).drop 4 at hpending
  unfold inspectUnmarkedStream
  rw [hmagic]
  dsimp only
  split
  · have hroom : ([] : List Byte).length + ((source.pending s).take 4).length ≤ magicSize := by
      rw [List.length_nil, Nat.zero_add, List.length_take]
      exact Nat.min_le_left _ _
    rw [PushbackInputStream.unread, if_pos hroom]
    refine ⟨_, by rw [classify_take], ?_⟩
    show (source.pending s).take 4 ++ [] ++ source.pending rest = source.pending s
    rw [List.append_nil, hpending, List.take_append_drop]
  · rename_i hempty
    have hnil : (source.pending s).take 4 = [] := List.length_eq_zero_iff.mp (by omega)
    refine ⟨_, by rw [classify_take], ?_⟩
    show source.pending rest = source.pending s
    rw [hpending]
    conv_rhs => rw [← List.take_append_drop 4 (source.pending s), hnil, List.nil_append]

/-- A channel is classified by its contents and put back. -/
theorem inspectNativeFlacChannel_eq (sizes : ℕ → ℕ) {rounds : ℕ} (hrounds : magicSize < rounds)
    (c : CallerChannel) :
    ∃ c', inspectNativeFlacChannel (.short sizes) rounds c =
        (some (.ok (containerOf c.rest)), c') ∧
      c'.position = c.position ∧ c'.content = c.content := by
  obtain ⟨t, hmagic, -⟩ := (CallerChannel.source InspectionException sizes).collect_eq
    (some noProgress) [] c hrounds
  change fillMagic (CallerChannel.read (.short sizes)) rounds c =
    (some (.ok (c.rest.take 4)), t) at hmagic
  have hstep : ∀ (got : List Byte) (u : CallerChannel), got.length < magicSize →
      u.content = c.content →
      (CallerChannel.read (.short (ε := InspectionException) sizes) u
        (.upTo (magicSize - got.length))).2.content = c.content := by
    intro got u hfull hu
    have hsize : 0 < (ReadRequest.upTo (magicSize - got.length)).size := by
      show 0 < magicSize - got.length
      omega
    rw [CallerChannel.read, Portions.read_of_pos _ u hsize]
    exact hu
  obtain ⟨_, hcontent, -⟩ := collect_invariant (some noProgress)
    (fun (_ : List Byte) (u : CallerChannel) => u.content = c.content)
    (CallerChannel.read (.short sizes)) hstep rounds (show c.content = c.content from rfl)
  change (fillMagic (CallerChannel.read (.short sizes)) rounds c).2.content = c.content at hcontent
  rw [hmagic] at hcontent
  unfold inspectNativeFlacChannel
  rw [hmagic]
  dsimp only
  rw [classify_take]
  exact ⟨_, rfl, rfl, hcontent⟩

/-- The stream that Java Sound hands on delivers the header again. -/
theorem replayHeader_eq (source : Source InspectionException Byte σ) {rounds : ℕ}
    (hrounds : magicSize < rounds) (s : σ) :
    ∃ s', replayHeader source.read rounds s = some (.ok s') ∧
      source.prefixed.pending s' = source.pending s := by
  obtain ⟨rest, hmagic, hpending⟩ := readMagic_eq source hrounds s
  change collect none source.read 4 rounds [] s = (some (.ok ((source.pending s).take 4)), rest)
    at hmagic
  rw [replayHeader, hmagic]
  refine ⟨_, rfl, ?_⟩
  show (source.pending s).take 4 ++ source.pending rest = source.pending s
  rw [hpending, List.take_append_drop]

/-! ## Agreement -/

/-- A run of reads of any sizes delivers these bytes from the first one on. -/
def Replays (read : Reader InspectionException Byte σ) (s : σ) (bytes : List Byte) : Prop :=
  ∀ requests, Delivers bytes (answers read s requests)

/-- The inspections of a source with these contents agree and leave no trace: each says Ogg exactly
when the contents begin with `OggS`, the channel is back where it was, and the streams handed on
deliver everything. The portions are arbitrary; those of the file at the path are given. -/
structure InspectorsAgree (bytes : List Byte) (fileSizes : ℕ → ℕ) : Prop where
  path : inspectNativeFlacPath (.short fileSizes) (some bytes) = .ok (containerOf bytes)
  marked : ∀ sizes rounds (s : CallerStream), magicSize < rounds → s.rest = bytes →
    ∃ s', inspectMarkedStream (.short sizes) rounds s = (some (.ok (containerOf bytes)), s') ∧
      s'.position = s.position ∧ Replays (CallerStream.read (.short sizes)) s' bytes
  unmarked : ∀ sizes rounds (s : CallerStream), magicSize < rounds → s.rest = bytes →
    ∃ s', inspectUnmarkedStream (CallerStream.read (.short sizes)) rounds s =
        (some (.ok (containerOf bytes)), s') ∧
      Replays (PushbackInputStream.read (CallerStream.read (.short sizes))) s' bytes
  channel : ∀ sizes rounds (c : CallerChannel), magicSize < rounds → c.rest = bytes →
    ∃ c', inspectNativeFlacChannel (.short sizes) rounds c =
        (some (.ok (containerOf bytes)), c') ∧ c'.position = c.position ∧ c'.content = c.content
  replayed : ∀ sizes rounds (s : CallerStream), magicSize < rounds → s.rest = bytes →
    ∃ s', replayHeader (CallerStream.read (.short sizes)) rounds s = some (.ok s') ∧
      Replays (ReplayPrefixInputStream.read (CallerStream.read (.short sizes))) s' bytes

theorem Source.replays (source : Source InspectionException Byte σ) {s : σ} {bytes : List Byte}
    (h : source.pending s = bytes) : Replays source.read s bytes := by
  intro requests
  rw [← h]
  exact source.delivers s requests

/-- The path inspection is right exactly when a file that begins with `OggS` brings all four bytes
at its first read. -/
theorem inspectNativeFlacPath_iff (sizes : ℕ → ℕ) (bytes : List Byte) :
    inspectNativeFlacPath (.short sizes) (some bytes) = .ok (containerOf bytes) ↔
      (bytes.take 4 = oggMagic → 4 ≤ sizes 0) := by
  have hsize : (Portions.short (ε := InspectionException) sizes).size 0 4 =
      max 1 (min (sizes 0) 4) := rfl
  rw [inspectNativeFlacPath_eq, Except.ok.injEq, hsize]
  by_cases hogg : bytes.take 4 = oggMagic
  · have hcontainer : containerOf bytes = .ogg := if_pos hogg
    rw [hcontainer]
    by_cases hfull : 4 ≤ sizes 0
    · rw [show max 1 (min (sizes 0) 4) = 4 by omega, classify_take, hcontainer]
      exact ⟨fun _ _ => hfull, fun _ => rfl⟩
    · rw [classify_of_length_lt (by rw [List.length_take]; omega)]
      exact ⟨nofun, fun h => absurd (h hogg) hfull⟩
  · have hcontainer : containerOf bytes = .native := if_neg hogg
    refine ⟨fun _ h => absurd h hogg, fun _ => ?_⟩
    rw [hcontainer]
    by_cases hfull : 4 ≤ sizes 0
    · rw [show max 1 (min (sizes 0) 4) = 4 by omega, classify_take, hcontainer]
    · exact classify_of_length_lt (by rw [List.length_take]; omega)

/-- The inspections agree exactly when a file that begins with `OggS` brings all four bytes at its
first read. -/
theorem inspectors_agree_iff (bytes : List Byte) (fileSizes : ℕ → ℕ) :
    InspectorsAgree bytes fileSizes ↔ (bytes.take 4 = oggMagic → 4 ≤ fileSizes 0) := by
  refine ⟨fun h => (inspectNativeFlacPath_iff fileSizes bytes).mp h.path, fun h =>
    ⟨(inspectNativeFlacPath_iff fileSizes bytes).mpr h, ?_, ?_, ?_, ?_⟩⟩
  · rintro sizes rounds s hrounds rfl
    obtain ⟨s', hinspect, hposition, hcontent⟩ := inspectMarkedStream_eq sizes hrounds s
    refine ⟨s', hinspect, hposition,
      Source.replays (CallerStream.source InspectionException sizes) ?_⟩
    show s'.content.drop s'.position = s.content.drop s.position
    rw [hcontent, hposition]
  · rintro sizes rounds s hrounds rfl
    obtain ⟨s', hinspect, hpending⟩ :=
      inspectUnmarkedStream_eq (CallerStream.source InspectionException sizes) hrounds s
    exact ⟨s', hinspect, Source.replays (CallerStream.source _ sizes).prefixed hpending⟩
  · rintro sizes rounds c hrounds rfl
    exact inspectNativeFlacChannel_eq sizes hrounds c
  · rintro sizes rounds s hrounds rfl
    obtain ⟨s', hreplay, hpending⟩ :=
      replayHeader_eq (CallerStream.source InspectionException sizes) hrounds s
    exact ⟨s', hreplay, Source.replays (CallerStream.source _ sizes).prefixed hpending⟩

/-- An Ogg file whose first read brings one byte is sent to the native decoder, while the streams
and channels with the same bytes are sent to the Ogg decoder. -/
theorem inspectors_disagree_shortRead :
    inspectNativeFlacPath (.short fun _ => 1) (some oggMagic) = .ok .native ∧
      ¬ InspectorsAgree oggMagic fun _ => 1 := by
  have hpath : inspectNativeFlacPath (.short fun _ => 1) (some oggMagic) = .ok .native := by decide
  refine ⟨hpath, fun h => ?_⟩
  have hcontainer := h.path
  rw [hpath] at hcontainer
  exact absurd hcontainer (by decide)

end JFlac.Streams
