import JFlac.Lib.Calls
import JFlac.Streams.Caller

/-!
# Opening a Java Sound stream

`FlacAudioFileReader.getAudioInputStream(InputStream)` marks the caller's stream, looks at the first
four bytes, lets the native decoder read as much as it wants to open a pull session, and resets the
stream when anything fails. A stream that honours its mark limit exactly refuses to be reset once
more bytes were read than the limit allows.

The decoder is a tree of read requests: nothing is assumed about how many bytes it asks for, or
what it makes of them.
-/

namespace JFlac.Sound

open Lib
open Streams (CallerStream Portions flacMagic oggMagic)

/-! ## Reading a header -/

section Header

variable {ε : Type}

/-- `stream.readNBytes(n)`; a stream that makes progress never runs out of rounds. -/
def readNBytes (portions : Portions ε) (n : ℕ) (s : CallerStream) :
    Option (Except ε (List Byte)) × CallerStream :=
  collect none (CallerStream.read portions) n (n + 1) [] s

/-- While at most `n` bytes are read, those there are so far are the next of the stream. -/
def Taken (s : CallerStream) (n : ℕ) (got : List Byte) (t : CallerStream) : Prop :=
  ∃ counts, s.ReadsFrom counts t ∧ counts.sum ≤ n ∧
    got = s.rest.take counts.sum ∧ got.length = counts.sum

theorem Taken.step {s t : CallerStream} {n : ℕ} {got : List Byte}
    (portions : Portions ε) (hlt : got.length < n) (h : Taken s n got t) :
    Taken s n (got ++ (CallerStream.read portions t (.upTo (n - got.length))).1.elements)
      (CallerStream.read portions t (.upTo (n - got.length))).2 := by
  obtain ⟨counts, hreads, hle, hbytes, hlength⟩ := h
  obtain ⟨more, hmore, hsum⟩ := CallerStream.readsFrom_read portions t (.upTo (n - got.length))
  have hbound := CallerStream.length_read_le portions t (.upTo (n - got.length))
  have hnext := CallerStream.elements_read portions t (.upTo (n - got.length))
  rw [← hsum, hreads.rest] at hnext
  change _ ≤ n - got.length at hbound
  refine ⟨counts ++ more, hreads.trans hmore, ?_, ?_, ?_⟩
  · rw [List.sum_append]
    omega
  · rw [List.sum_append, List.take_add, ← hbytes, ← hnext]
  · rw [List.length_append, List.sum_append, hsum]
    omega

/-- `readNBytes` ends, having taken at most `n` bytes; those it returns are the next of the
stream. -/
theorem readNBytes_reads (portions : Portions ε) (n : ℕ) (s : CallerStream) :
    (readNBytes portions n s).1 ≠ none ∧
      ∃ counts, s.ReadsFrom counts (readNBytes portions n s).2 ∧ counts.sum ≤ n ∧
        ∀ bytes, (readNBytes portions n s).1 = some (.ok bytes) →
          bytes = s.rest.take counts.sum ∧ bytes.length = counts.sum := by
  have hends : (readNBytes portions n s).1 ≠ none :=
    collect_ends none (CallerStream.read portions)
      (.inr fun t _ hpos => CallerStream.read_ne_nil portions t hpos) s (by simp)
  refine ⟨hends, ?_⟩
  have hstart : Taken s n [] s := ⟨[], .refl s, Nat.zero_le n, rfl, rfl⟩
  obtain ⟨got, ⟨counts, hreads, hle, hbytes, hlength⟩, hresult⟩ :=
    collect_invariant none (Taken s n) (CallerStream.read portions)
      (fun _ _ hlt h => h.step portions hlt) (n + 1) hstart
  refine ⟨counts, hreads, hle, fun bytes h => ?_⟩
  rw [hresult bytes h]
  exact ⟨hbytes, hlength⟩

end Header

/-! ## Opening -/

/-- The failures of an open; the constructors name the branches of `getAudioInputStream`. -/
inductive OpenFailure where
  | flacException (message : String)
  | unsupportedAudioFile (message : String)
  | ioException (message : String)
  | other (identity : ℕ)
  deriving DecidableEq, Repr

/-- A thrown exception with the failures suppressed in its favour. -/
structure Thrown where
  primary : OpenFailure
  suppressed : List OpenFailure
  deriving DecidableEq, Repr

/-- `FLAC_HEADER_BYTES`. -/
def flacHeaderBytes : ℕ := 4

/-- `STREAM_DECODE_SETUP_MARK_LIMIT`. -/
def streamDecodeSetupMarkLimit : ℕ := 1048576

/-- `HeaderDetails`, as far as the container goes. -/
inductive HeaderDetails where
  | flac
  | oggFlac
  deriving DecidableEq, Repr

/-- `classifyHeader`. -/
def classifyHeader (header : List Byte) : Except OpenFailure HeaderDetails :=
  if header = flacMagic then .ok .flac
  else if header = oggMagic then .ok .oggFlac
  else .error (.unsupportedAudioFile "Input is not a FLAC or Ogg FLAC stream.")

/-- `checkedDecodeStream` for a mark-capable stream. -/
def checkedDecodeStream (portions : Portions OpenFailure) (s : CallerStream) :
    Option (Except OpenFailure HeaderDetails) × CallerStream :=
  match readNBytes portions flacHeaderBytes (s.mark streamDecodeSetupMarkLimit) with
  | (none, s) => (none, s)
  | (some (.error failure), s) => (some (.error failure), s)
  | (some (.ok header), s) =>
    match s.reset with
    | (false, s) => (some (.error (.ioException "mark/reset failed")), s)
    | (true, s) => (some (classifyHeader header), s)

/-- `resetStreamOnFailure`: a failing reset is added to the exception. -/
def resetStreamOnFailure (s : CallerStream) (reset : Bool) (failure : Thrown) :
    Thrown × CallerStream :=
  if reset then
    match s.reset with
    | (true, s) => (failure, s)
    | (false, s) =>
      ({ failure with suppressed := failure.suppressed ++ [.ioException "mark/reset failed"] }, s)
  else (failure, s)

/-- `unsupported`: a `FlacException` becomes an `UnsupportedAudioFileException`. -/
def unsupported : OpenFailure → OpenFailure
  | .flacException message => .unsupportedAudioFile message
  | failure => failure

/-- The decoder and the format code around a stream: how a pull session is opened with reads through
`NonMarkingInputStream`, which failure the audio format of the session raises, if any, and which
failure closing the session raises. -/
structure Opener (Session : Type) where
  openPull : HeaderDetails →
    Calls ReadRequest (fun _ => ReadAnswer OpenFailure Byte) (Except OpenFailure Session)
  audioFormat : Session → HeaderDetails → Option OpenFailure
  close : Session → Option OpenFailure

variable {Session : Type}

/-- `closeSession`. -/
def closeSession (opener : Opener Session) (session : Session) (failure : OpenFailure) : Thrown :=
  ⟨failure, (opener.close session).toList⟩

/-- `NonMarkingInputStream`: reads go to the stream of the caller. -/
def nonMarkingRead (portions : Portions OpenFailure) (request : ReadRequest) (s : CallerStream) :
    ReadAnswer OpenFailure Byte × CallerStream :=
  CallerStream.read portions s request

/-- `getAudioInputStream(InputStream)` for a mark-capable stream. -/
def getAudioInputStream (portions : Portions OpenFailure) (opener : Opener Session)
    (s : CallerStream) : Option (Except Thrown Session) × CallerStream :=
  match checkedDecodeStream portions s with
  | (none, s) => (none, s)
  | (some (.error failure), s) =>
    let thrown := resetStreamOnFailure s false ⟨failure, []⟩
    (some (.error thrown.1), thrown.2)
  | (some (.ok details), s) =>
    match (opener.openPull details).run (nonMarkingRead portions) s with
    | (.error failure, s) =>
      let thrown := resetStreamOnFailure s true ⟨unsupported failure, []⟩
      (some (.error thrown.1), thrown.2)
    | (.ok session, s) =>
      match opener.audioFormat session details with
      | none => (some (.ok session), s)
      | some failure =>
        let thrown := resetStreamOnFailure s true (closeSession opener session (unsupported failure))
        (some (.error thrown.1), thrown.2)

/-- The rounds of the header read always suffice: an open returns a session or throws. -/
theorem getAudioInputStream_ends (portions : Portions OpenFailure) (opener : Opener Session)
    (s : CallerStream) : (getAudioInputStream portions opener s).1 ≠ none := by
  have hends := (readNBytes_reads portions flacHeaderBytes (s.mark streamDecodeSetupMarkLimit)).1
  rw [getAudioInputStream, checkedDecodeStream]
  rcases hheader : readNBytes portions flacHeaderBytes (s.mark streamDecodeSetupMarkLimit) with
    ⟨result, t⟩
  rw [hheader] at hends
  cases result with
  | none => exact absurd rfl hends
  | some result =>
  cases result with
  | error failure => exact nofun
  | ok header =>
    dsimp only
    split <;> rename_i hchecked
    · -- no branch behind the header read runs out of rounds
      split at hchecked <;> cases hchecked
    · exact nofun
    · split
      · exact nofun
      · split <;> exact nofun

/-! ## What the decoder takes -/

/-- The number of bytes a decoder takes from a stream. -/
def consumed {α : Type} (portions : Portions OpenFailure) :
    Calls ReadRequest (fun _ => ReadAnswer OpenFailure Byte) α → CallerStream → ℕ
  | .done _, _ => 0
  | .call request next, s =>
    let answer := nonMarkingRead portions request s
    answer.1.elements.length + consumed portions (next answer.1) answer.2

/-- Running a decoder moves the stream by what it takes and leaves the mark alone. -/
theorem run_read {α : Type} (portions : Portions OpenFailure)
    (decoder : Calls ReadRequest (fun _ => ReadAnswer OpenFailure Byte) α) (s : CallerStream) :
    ∃ counts, s.ReadsFrom counts (decoder.run (nonMarkingRead portions) s).2 ∧
      counts.sum = consumed portions decoder s := by
  induction decoder generalizing s with
  | done result => exact ⟨[], .refl s, rfl⟩
  | call request next ih =>
    obtain ⟨first, hfirst, hsum⟩ := CallerStream.readsFrom_read portions s request
    obtain ⟨rest, hrest, hrestSum⟩ := ih (nonMarkingRead portions request s).1
      (nonMarkingRead portions request s).2
    refine ⟨first ++ rest, hfirst.trans hrest, ?_⟩
    rw [List.sum_append, hsum, hrestSum]
    rfl

/-! ## Where a failed open leaves the stream -/

/-- The bytes a stream counts as read since the mark, once a decoder took some behind the header:
the header was read before, and counts unless going back to the mark started anew. -/
def counted (s : CallerStream) (taken : ℕ) : ℕ :=
  (if s.restarts then 0 else flacHeaderBytes) + taken

/-- A stream that is back where it was, with the setup mark in force. -/
structure SetUp (s t : CallerStream) : Prop where
  content : t.content = s.content
  position : t.position = s.position
  marked : t.marked = some (s.position, streamDecodeSetupMarkLimit)
  readSinceMark : t.readSinceMark =
    if s.restarts then 0 else (s.rest.take flacHeaderBytes).length

section

variable (sizes : ℕ → ℕ)

/-- The header check puts a stream back. -/
theorem checkedDecodeStream_eq (s : CallerStream) :
    ∃ t, checkedDecodeStream (.short sizes) s =
        (some (classifyHeader (s.rest.take flacHeaderBytes)), t) ∧ SetUp s t := by
  obtain ⟨t, hheader, -⟩ := (CallerStream.source OpenFailure sizes).collect_eq none []
    (s.mark streamDecodeSetupMarkLimit) (Nat.lt_succ_self (flacHeaderBytes - 0))
  change readNBytes (.short sizes) flacHeaderBytes (s.mark streamDecodeSetupMarkLimit) =
    (some (.ok (s.rest.take flacHeaderBytes)), t) at hheader
  obtain ⟨-, counts, hreads, hle, hbytes⟩ :=
    readNBytes_reads (.short sizes) flacHeaderBytes (s.mark streamDecodeSetupMarkLimit)
  rw [hheader] at hreads hbytes
  obtain ⟨-, hlength⟩ := hbytes _ rfl
  have hmarked : t.marked = some (s.position, streamDecodeSetupMarkLimit) := hreads.marked
  have hread : t.readSinceMark = (s.rest.take flacHeaderBytes).length := by
    rw [hreads.readSinceMark, hlength]
    exact Nat.zero_add _
  have hrestarts : t.restarts = s.restarts := hreads.restarts
  -- four bytes at most are within the limit of the mark
  have hlimit : t.readSinceMark ≤ streamDecodeSetupMarkLimit := by
    rw [hread, hlength]
    exact hle.trans (by decide)
  rw [checkedDecodeStream, hheader]
  dsimp only
  rw [CallerStream.reset, hmarked]
  dsimp only
  rw [if_pos hlimit]
  exact ⟨_, rfl, hreads.content, rfl, rfl, by rw [hrestarts, hread]⟩

/-- A header that is accepted has all its bytes. -/
theorem length_of_classifyHeader {header : List Byte} {details : HeaderDetails}
    (h : classifyHeader header = .ok details) : header.length = flacHeaderBytes := by
  rw [classifyHeader] at h
  by_cases hflac : header = flacMagic
  · rw [hflac]
    rfl
  rw [if_neg hflac] at h
  by_cases hogg : header = oggMagic
  · rw [hogg]
    rfl
  · rw [if_neg hogg] at h
    contradiction

/-- Resetting after the decoder took some bytes goes back exactly when the limit was kept. -/
theorem resetStreamOnFailure_position (s : CallerStream) (start : ℕ) (failure : Thrown)
    (hmark : s.marked = some (start, streamDecodeSetupMarkLimit)) :
    (resetStreamOnFailure s true failure).2.position =
      if s.readSinceMark ≤ streamDecodeSetupMarkLimit then start else s.position := by
  rw [resetStreamOnFailure, if_pos rfl, CallerStream.reset, hmark]
  dsimp only
  by_cases h : s.readSinceMark ≤ streamDecodeSetupMarkLimit
  · rw [if_pos h, if_pos h]
  · rw [if_neg h, if_neg h]

/-- What the decoder takes from the stream that passed the header check. -/
def taken (portions : Portions OpenFailure) (opener : Opener Session) (details : HeaderDetails)
    (s : CallerStream) : ℕ :=
  consumed portions (opener.openPull details) (checkedDecodeStream portions s).2

/-- The final position of a failed open of a candidate. -/
theorem position_of_candidate {opener : Opener Session} {s : CallerStream} {details : HeaderDetails}
    {thrown : Thrown} (hheader : classifyHeader (s.rest.take flacHeaderBytes) = .ok details)
    (hthrown : (getAudioInputStream (.short sizes) opener s).1 = some (.error thrown)) :
    (getAudioInputStream (.short sizes) opener s).2.position =
      if counted s (taken (.short sizes) opener details s) ≤ streamDecodeSetupMarkLimit then
        s.position
      else s.position + taken (.short sizes) opener details s := by
  obtain ⟨t, hchecked, hsetUp⟩ := checkedDecodeStream_eq sizes s
  obtain ⟨counts, hreads, hsum⟩ := run_read (.short sizes) (opener.openPull details) t
  have htaken : taken (.short sizes) opener details s = counts.sum := by
    rw [taken, hchecked, hsum]
  rw [getAudioInputStream, hchecked, hheader] at hthrown ⊢
  dsimp only at hthrown ⊢
  generalize (opener.openPull details).run (nonMarkingRead (.short sizes)) t = result
    at hreads hthrown ⊢
  obtain ⟨outcome, u⟩ := result
  have hmarked : u.marked = some (s.position, streamDecodeSetupMarkLimit) :=
    hreads.marked.trans hsetUp.marked
  have hposition : u.position = s.position + counts.sum := by
    rw [hreads.position, hsetUp.position]
  have hcounted : u.readSinceMark = counted s counts.sum := by
    rw [hreads.readSinceMark, hsetUp.readSinceMark, length_of_classifyHeader hheader]
    rfl
  -- every failure behind the header check resets the stream
  have hreset : ∀ failure, (resetStreamOnFailure u true failure).2.position =
      if counted s counts.sum ≤ streamDecodeSetupMarkLimit then s.position
      else s.position + counts.sum := by
    intro failure
    rw [resetStreamOnFailure_position u s.position failure hmarked, hcounted, hposition]
  rw [htaken]
  cases outcome with
  | error failure => exact hreset _
  | ok session =>
    dsimp only at hthrown ⊢
    cases hformat : opener.audioFormat session details with
    | none =>
      rw [hformat] at hthrown
      cases hthrown
    | some failure => exact hreset _

/-- A failed open puts a mark-capable stream back exactly when its first bytes are neither magic,
or the decoder took no more bytes than the setup mark allows. -/
theorem getAudioInputStream_restores_iff {opener : Opener Session} {s : CallerStream}
    {thrown : Thrown}
    (hthrown : (getAudioInputStream (.short sizes) opener s).1 = some (.error thrown)) :
    (getAudioInputStream (.short sizes) opener s).2.position = s.position ↔
      ∀ details, classifyHeader (s.rest.take flacHeaderBytes) = .ok details →
        counted s (taken (.short sizes) opener details s) ≤ streamDecodeSetupMarkLimit := by
  cases hheader : classifyHeader (s.rest.take flacHeaderBytes) with
  | error failure =>
    obtain ⟨t, hchecked, hsetUp⟩ := checkedDecodeStream_eq sizes s
    rw [getAudioInputStream, hchecked, hheader]
    exact ⟨fun _ => nofun, fun _ => hsetUp.position⟩
  | ok details =>
    rw [position_of_candidate sizes hheader hthrown]
    by_cases hlimit : counted s (taken (.short sizes) opener details s) ≤ streamDecodeSetupMarkLimit
    · rw [if_pos hlimit]
      refine ⟨fun _ details' h => ?_, fun _ => rfl⟩
      obtain rfl := Except.ok.inj h
      exact hlimit
    · rw [if_neg hlimit]
      have hpositive : taken (.short sizes) opener details s ≠ 0 := by
        intro hzero
        rw [hzero, counted] at hlimit
        split at hlimit <;> exact hlimit (by decide)
      exact ⟨fun h => absurd h (by omega), fun h => absurd (h details rfl) hlimit⟩

end

/-- A decoder that asks for `count` bytes and then rejects the stream. -/
def rejecting (count : ℕ) : Opener Unit where
  openPull _ := .call (.upTo count) fun _ =>
    .done (.error (.flacException "Failed to open FLAC stream."))
  audioFormat _ _ := none
  close _ := none

/-- A stream that starts with the native magic, at its beginning. -/
def flacStream (rest : List Byte) (restarts : Bool) : CallerStream where
  content := flacMagic ++ rest
  position := 0
  marked := none
  readSinceMark := 0
  restarts := restarts
  reads := 0
  calls := []

/-- A stream that is ready with as many bytes as were asked for brings them, or all that are left. -/
theorem length_read_ready {sizes : ℕ → ℕ} {count : ℕ} (hcount : 0 < count)
    (hsizes : ∀ i, count ≤ sizes i) (s : CallerStream) :
    (nonMarkingRead (.short sizes) (.upTo count) s).1.elements.length =
      min count s.rest.length := by
  have hsize : (Portions.short (ε := OpenFailure) sizes).size s.reads count = count := by
    have hready := hsizes s.reads
    unfold Portions.size
    change max 1 (min (sizes s.reads) count) = count
    omega
  rw [nonMarkingRead, CallerStream.read,
    Portions.read_of_pos _ s (show 0 < (ReadRequest.upTo count).size from hcount)]
  change ((if s.rest = [] then ReadAnswer.ended else .data (s.rest.take
    ((Portions.short (ε := OpenFailure) sizes).size s.reads count))).elements).length = _
  rw [hsize]
  by_cases hrest : s.rest = []
  · rw [if_pos hrest, hrest]
    exact (Nat.min_zero count).symm
  · rw [if_neg hrest]
    exact List.length_take ..

theorem taken_rejecting {sizes : ℕ → ℕ} {count : ℕ} (hcount : 0 < count)
    (hsizes : ∀ i, count ≤ sizes i) (rest : List Byte) (restarts : Bool) :
    taken (.short sizes) (rejecting count) .flac (flacStream rest restarts) =
      min count (rest.length + 4) := by
  obtain ⟨t, hchecked, hsetUp⟩ := checkedDecodeStream_eq sizes (flacStream rest restarts)
  have hrest : t.rest = flacMagic ++ rest := by
    rw [CallerStream.rest, hsetUp.content, hsetUp.position]
    rfl
  have hlength : (flacMagic ++ rest).length = rest.length + 4 := by
    rw [List.length_append, Nat.add_comm]
    rfl
  rw [taken, hchecked, rejecting, consumed, consumed, length_read_ready hcount hsizes, hrest,
    hlength]
  rfl

theorem classifyHeader_flacStream (rest : List Byte) (restarts : Bool) :
    classifyHeader ((flacStream rest restarts).rest.take flacHeaderBytes) = .ok .flac := rfl

/-- The decoder's rejection is what the caller sees. -/
theorem rejecting_throws (sizes : ℕ → ℕ) (count : ℕ) (rest : List Byte) (restarts : Bool) :
    ∃ thrown, (getAudioInputStream (.short sizes) (rejecting count)
      (flacStream rest restarts)).1 = some (.error thrown) := by
  obtain ⟨t, hchecked, -⟩ := checkedDecodeStream_eq sizes (flacStream rest restarts)
  rw [getAudioInputStream, hchecked, classifyHeader_flacStream]
  exact ⟨_, rfl⟩

/-- Two kilobytes of bad metadata: the stream is put back. -/
theorem getAudioInputStream_restores_iff_short :
    (getAudioInputStream (.short fun _ => 2048) (rejecting 2048)
      (flacStream (List.replicate 2044 0) false)).2.position = 0 := by
  obtain ⟨thrown, hthrown⟩ := rejecting_throws (fun _ => 2048) 2048 (List.replicate 2044 0) false
  refine (getAudioInputStream_restores_iff _ hthrown).mpr fun details hdetails => ?_
  obtain rfl : details = .flac := (Except.ok.inj hdetails).symm
  rw [taken_rejecting (by decide) (fun _ => Nat.le_refl _), List.length_replicate]
  decide

/-- One mebibyte and a byte of bad metadata: the stream stays where the decoder left it, however it
counts. -/
theorem getAudioInputStream_not_restored :
    (∃ thrown, (getAudioInputStream (.short fun _ => 1048577) (rejecting 1048577)
        (flacStream (List.replicate 1048576 0) true)).1 = some (.error thrown)) ∧
      (getAudioInputStream (.short fun _ => 1048577) (rejecting 1048577)
        (flacStream (List.replicate 1048576 0) true)).2.position = 1048577 ∧
      (getAudioInputStream (.short fun _ => 1048577) (rejecting 1048577)
        (flacStream (List.replicate 1048576 0) false)).2.position = 1048577 := by
  have hposition : ∀ restarts, (getAudioInputStream (.short fun _ => 1048577) (rejecting 1048577)
      (flacStream (List.replicate 1048576 0) restarts)).2.position = 1048577 := by
    intro restarts
    obtain ⟨thrown, hthrown⟩ :=
      rejecting_throws (fun _ => 1048577) 1048577 (List.replicate 1048576 0) restarts
    have htaken : taken (.short fun _ => 1048577) (rejecting 1048577) .flac
        (flacStream (List.replicate 1048576 0) restarts) = 1048577 := by
      rw [taken_rejecting (by decide) (fun _ => Nat.le_refl _), List.length_replicate]
      exact Nat.min_eq_left (by omega)
    have hlimit : ¬ counted (flacStream (List.replicate 1048576 0) restarts) 1048577 ≤
        streamDecodeSetupMarkLimit := by
      rw [counted, streamDecodeSetupMarkLimit]
      omega
    rw [position_of_candidate _ (classifyHeader_flacStream _ _) hthrown, htaken, if_neg hlimit]
    exact Nat.zero_add _
  exact ⟨rejecting_throws _ _ _ _, hposition true, hposition false⟩

end JFlac.Sound
