import JFlac.Sound.StreamOpen

/-!
# Probing a format without consuming it

`FlacAudioFileReader.getAudioFileFormat(InputStream)` must leave a mark-capable stream where it was,
so that another provider can look at the same bytes. A native candidate is probed from a copy of its
first 42 bytes; an Ogg candidate is handed to the decoder behind a stream with a budget of one
mebibyte, which is also the limit of the mark to go back to.

The decoder and the close of its session are trees of calls on the stream they were given: nothing
is assumed about which calls they make.
-/

namespace JFlac.Sound

open Lib
open Streams (CallerStream Portions StreamCall oggMagic)

/-! ## Streams a decoder is given -/

/-- The exceptions of a probe: the budget of the stream is exceeded, or another one. -/
inductive ProbeFailure where
  | budgetExceeded
  | thrown (failure : OpenFailure)
  deriving DecidableEq, Repr

/-- The calls a decoder makes on its `InputStream`. The methods a stream inherits, such as `skip`,
are made of these. -/
inductive InputCall where
  | read
  /-- `read(byte[], int, int)` into an array of the given length. -/
  | readArray (capacity offset length : ℤ)
  | markSupported
  | mark (limit : ℕ)
  | reset
  | close
  deriving DecidableEq, Repr

/-- What a call returns, and the bytes it has put into the array. -/
inductive InputReply where
  | value (value : ℤ) (bytes : List Byte)
  | raised (failure : ProbeFailure)
  deriving DecidableEq, Repr

/-- Code that runs over an `InputStream`. -/
abbrev StreamUser (α : Type) := Calls InputCall (fun _ => InputReply) α

/-- What an `InputStream` does with a call. -/
abbrev InputHandler (τ : Type) := InputCall → τ → InputReply × τ

/-- `Objects.checkFromIndexSize`. -/
def outOfBounds (capacity offset length : ℤ) : Bool :=
  decide (offset < 0 ∨ length < 0 ∨ capacity < offset + length)

/-- The reply of `read()`. -/
def byteReply : ReadAnswer ProbeFailure Byte → InputReply
  | .data (b :: _) => .value b.toNat [b]
  | .data [] | .ended => .value (-1) []
  | .raised e => .raised e

/-- The reply of `read(byte[], int, int)`. -/
def arrayReply : ReadAnswer ProbeFailure Byte → InputReply
  | .data bytes => .value bytes.length bytes
  | .ended => .value (-1) []
  | .raised e => .raised e

/-- The exception of `InputStream.reset`. -/
def resetUnsupported : ProbeFailure := .thrown (.ioException "mark/reset not supported")

/-- `ProbeBudgetInputStream`. -/
structure ProbeBudgetInputStream where
  delegate : CallerStream
  remaining : ℕ
  deriving DecidableEq, Repr

namespace ProbeBudgetInputStream

/-- One read of the delegate, within the budget: `remaining` goes down by what it brings. -/
def readDelegate (portions : Portions ProbeFailure) (reply : ReadAnswer ProbeFailure Byte → InputReply)
    (request : ReadRequest) (s : ProbeBudgetInputStream) : InputReply × ProbeBudgetInputStream :=
  let answer := CallerStream.read portions s.delegate request
  (reply answer.1,
    { delegate := answer.2, remaining := s.remaining - answer.1.elements.length })

/-- The methods of `ProbeBudgetInputStream`; all but the reads are inherited from `InputStream`. -/
def handle (portions : Portions ProbeFailure) : InputHandler ProbeBudgetInputStream
  | .read, s =>
    if s.remaining = 0 then (.raised .budgetExceeded, s)
    else readDelegate portions byteReply .one s
  | .readArray capacity offset length, s =>
    if outOfBounds capacity offset length then (.raised (.thrown (.other 0)), s)
    else if length = 0 then (.value 0 [], s)
    else if s.remaining = 0 then (.raised .budgetExceeded, s)
    else readDelegate portions arrayReply (.upTo (min length.toNat s.remaining)) s
  | .markSupported, s => (.value 0 [], s)
  | .mark _, s => (.value 0 [], s)
  | .reset, s => (.raised resetUnsupported, s)
  | .close, s => (.value 0 [], s)

end ProbeBudgetInputStream

/-- `java.io.ByteArrayInputStream`. -/
structure ByteArrayInputStream where
  buf : List Byte
  pos : ℕ
  mark : ℕ
  deriving DecidableEq, Repr

/-- The methods of `ByteArrayInputStream`. -/
def ByteArrayInputStream.handle : InputHandler ByteArrayInputStream
  | .read, s =>
    match s.buf.drop s.pos with
    | [] => (.value (-1) [], s)
    | b :: _ => (.value b.toNat [b], { s with pos := s.pos + 1 })
  | .readArray capacity offset length, s =>
    if outOfBounds capacity offset length then (.raised (.thrown (.other 0)), s)
    else if s.buf.length ≤ s.pos then (.value (-1) [], s)
    else
      let bytes := (s.buf.drop s.pos).take length.toNat
      (.value bytes.length bytes, { s with pos := s.pos + bytes.length })
  | .markSupported, s => (.value 1 [], s)
  | .mark _, s => (.value 0 [], { s with mark := s.pos })
  | .reset, s => (.value 0 [], { s with pos := s.mark })
  | .close, s => (.value 0 [], s)

/-! ## The probe -/

/-- The decoder and the format code around a stream. -/
structure FormatProbe (Session Format : Type) where
  openPull : StreamUser (Except ProbeFailure Session)
  sampleRate : Session → ℤ
  isSampleRateValid : ℤ → Bool
  fileFormat : Session → HeaderDetails → Except ProbeFailure Format
  close : Session → StreamUser (Option ProbeFailure)

/-- An exception with those suppressed in its favour. -/
structure ProbeThrown where
  primary : OpenFailure
  suppressed : List ProbeFailure
  deriving DecidableEq, Repr

variable {Session Format : Type} (probe : FormatProbe Session Format)

/-- `NATIVE_STREAM_INFO_PREFIX_BYTES`. -/
def nativeStreamInfoPrefixBytes : ℕ := 42

/-- `FORMAT_PROBE_OGG_BYTE_LIMIT`. -/
def formatProbeOggByteLimit : ℕ := 1048576

/-- The body of the `try` over an open session. -/
def sessionFormat (details : HeaderDetails) (session : Session) : Except ProbeFailure Format :=
  let sampleRate := probe.sampleRate session
  if sampleRate ≤ 0 ∨ probe.isSampleRateValid sampleRate = false then
    .error (.thrown (.unsupportedAudioFile "Invalid FLAC STREAMINFO sample rate."))
  else probe.fileFormat session details

/-- The `try` with the session as its resource: a failing close is suppressed if the body failed. -/
def probeSession {τ : Type} (handler : InputHandler τ) (details : HeaderDetails) (t : τ) :
    Except (ProbeFailure × List ProbeFailure) Format × τ :=
  match probe.openPull.run handler t with
  | (.error failure, t) => (.error (failure, []), t)
  | (.ok session, t) =>
    let body := sessionFormat probe details session
    let closed := (probe.close session).run handler t
    (match body, closed.1 with
      | .ok format, none => .ok format
      | .ok _, some failure => .error (failure, [])
      | .error failure, suppressed => .error (failure, suppressed.toList),
      closed.2)

/-- Whether the first 42 bytes are a STREAMINFO block behind the magic. -/
def validStreamInfoHeader (header : List Byte) : Bool :=
  decide (header.length = nativeStreamInfoPrefixBytes) &&
    header.getD 4 0 &&& 0x7f == 0 && header.getD 5 0 == 0 && header.getD 6 0 == 0 &&
    header.getD 7 0 == 34

/-- The copy of the header in which STREAMINFO is the last metadata block. -/
def lastBlockHeader (header : List Byte) : List Byte := header.set 4 (header.getD 4 0 ||| 0x80)

/-- The `try` body of `getAudioFileFormat`, on the marked stream. -/
def probeFormat (portions : Portions ProbeFailure) (s : CallerStream) :
    Option (Except (ProbeFailure × List ProbeFailure) Format) × CallerStream :=
  match readNBytes portions flacHeaderBytes s with
  | (none, s) => (none, s)
  | (some (.error e), s) => (some (.error (e, [])), s)
  | (some (.ok magic), s) =>
    match classifyHeader magic with
    | .error failure => (some (.error (.thrown failure, [])), s)
    | .ok .flac =>
      match readNBytes portions (nativeStreamInfoPrefixBytes - magic.length) s with
      | (none, s) => (none, s)
      | (some (.error e), s) => (some (.error (e, [])), s)
      | (some (.ok more), s) =>
        if validStreamInfoHeader (magic ++ more) then
          (some (probeSession probe ByteArrayInputStream.handle .flac
            ⟨lastBlockHeader (magic ++ more), 0, 0⟩).1, s)
        else
          (some (.error (.thrown (.unsupportedAudioFile
            "Invalid or truncated FLAC STREAMINFO header."), [])), s)
    | .ok .oggFlac =>
      match s.reset with
      | (false, s) => (some (.error (.thrown (.ioException "mark/reset failed"), [])), s)
      | (true, s) =>
        let probed := probeSession probe (ProbeBudgetInputStream.handle portions) .oggFlac
          ⟨s.mark formatProbeOggByteLimit, formatProbeOggByteLimit⟩
        (some probed.1, probed.2.delegate)

/-- The `catch` clauses of `getAudioFileFormat`, up to the reset. -/
def catchProbe (failure : ProbeFailure × List ProbeFailure) : ProbeThrown :=
  match failure with
  | (.budgetExceeded, _) =>
    ⟨.unsupportedAudioFile "Ogg FLAC format probing exceeded its 1 MiB read budget.", []⟩
  | (.thrown (.flacException message), _) => ⟨.unsupportedAudioFile message, []⟩
  | (.thrown failure, suppressed) => ⟨failure, suppressed⟩

/-- `getAudioFileFormat(InputStream)`, for a mark-capable stream. -/
def getAudioFileFormat (portions : Portions ProbeFailure) (s : CallerStream) :
    Option (Except ProbeThrown Format) × CallerStream :=
  match probeFormat probe portions (s.mark nativeStreamInfoPrefixBytes) with
  | (none, s) => (none, s)
  | (some (.error failure), s) =>
    let thrown := catchProbe failure
    match s.reset with
    | (true, s) => (some (.error thrown), s)
    | (false, s) =>
      (some (.error { thrown with
        suppressed := thrown.suppressed ++ [.thrown (.ioException "mark/reset failed")] }), s)
  | (some (.ok format), s) =>
    match s.reset with
    | (true, s) => (some (.ok format), s)
    | (false, s) => (some (.error ⟨.ioException "mark/reset failed", []⟩), s)

/-! ## The budget -/

/-- What was taken of the budget was read from the delegate. -/
def Budgeted (start : CallerStream) (budget : ℕ) (s : ProbeBudgetInputStream) : Prop :=
  ∃ counts, start.ReadsFrom counts s.delegate ∧ counts.sum + s.remaining = budget

section Budget

variable {start : CallerStream} {budget : ℕ} {s : ProbeBudgetInputStream}
  (portions : Portions ProbeFailure)

theorem Budgeted.readDelegate (reply : ReadAnswer ProbeFailure Byte → InputReply)
    {request : ReadRequest} (hrequest : request.size ≤ s.remaining)
    (h : Budgeted start budget s) :
    Budgeted start budget (s.readDelegate portions reply request).2 := by
  obtain ⟨counts, hreads, hbudget⟩ := h
  obtain ⟨more, hmore, hsum⟩ := CallerStream.readsFrom_read portions s.delegate request
  have hlength := CallerStream.length_read_le portions s.delegate request
  refine ⟨counts ++ more, hreads.trans hmore, ?_⟩
  rw [List.sum_append, hsum]
  dsimp only [ProbeBudgetInputStream.readDelegate]
  omega

/-- No call takes more than what remains. -/
theorem Budgeted.handle (call : InputCall) (h : Budgeted start budget s) :
    Budgeted start budget (ProbeBudgetInputStream.handle portions call s).2 := by
  cases call with
  | read =>
    rw [ProbeBudgetInputStream.handle]
    split
    · exact h
    · exact h.readDelegate portions byteReply (show 1 ≤ s.remaining by omega)
  | readArray capacity offset length =>
    rw [ProbeBudgetInputStream.handle]
    split
    · exact h
    split
    · exact h
    split
    · exact h
    · exact h.readDelegate portions arrayReply (Nat.min_le_right _ _)
  | markSupported => exact h
  | mark limit => exact h
  | reset => exact h
  | close => exact h

/-- A decoder and the close of its session stay within the budget. -/
theorem Budgeted.probeSession (details : HeaderDetails) (h : Budgeted start budget s) :
    Budgeted start budget
      (probeSession probe (ProbeBudgetInputStream.handle portions) details s).2 := by
  have hopened := Calls.run_invariant (fun call _ => Budgeted.handle portions call)
    probe.openPull h
  rw [Sound.probeSession]
  split
  · rename_i hrun
    rwa [hrun] at hopened
  · rename_i session t hrun
    rw [hrun] at hopened
    exact Calls.run_invariant (fun call _ => Budgeted.handle portions call) _ hopened

/-- A read beyond the budget raises and does not reach the delegate. -/
theorem handle_beyond_budget (hremaining : s.remaining = 0) :
    ProbeBudgetInputStream.handle portions .read s = (.raised .budgetExceeded, s) ∧
      ∀ capacity offset length, outOfBounds capacity offset length = false → length ≠ 0 →
        ProbeBudgetInputStream.handle portions (.readArray capacity offset length) s =
          (.raised .budgetExceeded, s) := by
  refine ⟨if_pos hremaining, fun capacity offset length hbounds hlength => ?_⟩
  rw [ProbeBudgetInputStream.handle, hbounds, if_neg Bool.false_ne_true, if_neg hlength,
    if_pos hremaining]

end Budget

/-! ## The mark -/

/-- The calls of a probe on the stream, by what is left of it: its mark is set, read and reset, and
an Ogg candidate is marked once more. -/
inductive ProbeCalls (rest : List Byte) : List StreamCall → Prop where
  | header (counts : List ℕ) (hlimit : counts.sum ≤ nativeStreamInfoPrefixBytes) :
      ProbeCalls rest
        (.mark nativeStreamInfoPrefixBytes :: counts.map .read ++ [.reset true])
  | ogg (magic counts : List ℕ) (hrest : rest.take flacHeaderBytes = oggMagic)
      (hmagic : magic.sum = flacHeaderBytes) (hlimit : counts.sum ≤ formatProbeOggByteLimit) :
      ProbeCalls rest
        (.mark nativeStreamInfoPrefixBytes :: magic.map .read ++ [.reset true] ++
          (.mark formatProbeOggByteLimit :: counts.map .read ++ [.reset true]))

/-- Only the Ogg magic makes an Ogg candidate. -/
theorem eq_oggMagic_of_classifyHeader {header : List Byte}
    (h : classifyHeader header = .ok .oggFlac) : header = oggMagic := by
  rw [classifyHeader] at h
  split at h
  · contradiction
  split at h
  · assumption
  · contradiction

/-- A stream whose last mark was at `position` and whose reads kept to its limit. -/
structure Restorable (start s : CallerStream) (calls : List StreamCall) : Prop where
  content : s.content = start.content
  calls : s.calls = start.calls ++ calls
  marked : ∃ limit, s.marked = some (start.position, limit) ∧ s.readSinceMark ≤ limit

/-- Reads within the limit of a mark leave it in place. -/
theorem Restorable.of_reads {start s t : CallerStream} {calls : List StreamCall} {limit : ℕ}
    {counts : List ℕ} (hposition : s.position = start.position)
    (hcontent : s.content = start.content) (hcalls : s.calls = start.calls ++ calls)
    (hreads : (s.mark limit).ReadsFrom counts t) (hlimit : counts.sum ≤ limit) :
    Restorable start t (calls ++ .mark limit :: counts.map .read) where
  content := hreads.content.trans hcontent
  calls := by
    rw [hreads.calls, CallerStream.mark, hcalls, List.append_assoc, List.append_assoc]
    rfl
  marked := by
    refine ⟨limit, by rw [hreads.marked, ← hposition]; rfl, ?_⟩
    rw [hreads.readSinceMark]
    exact (Nat.zero_add _).le.trans hlimit

/-- A restorable stream goes back to where it was. -/
theorem Restorable.reset {start s : CallerStream} {calls : List StreamCall}
    (h : Restorable start s calls) :
    s.reset.1 = true ∧ s.reset.2.position = start.position ∧ s.reset.2.content = start.content ∧
      s.reset.2.calls = start.calls ++ (calls ++ [.reset true]) := by
  obtain ⟨limit, hmarked, hread⟩ := h.marked
  rw [CallerStream.reset, hmarked]
  dsimp only
  rw [if_pos hread]
  refine ⟨rfl, rfl, h.content, ?_⟩
  dsimp only
  rw [h.calls, List.append_assoc]

/-- The `try` body ends with the stream restorable. -/
theorem probeFormat_restorable (portions : Portions ProbeFailure) (s : CallerStream) :
    (probeFormat probe portions (s.mark nativeStreamInfoPrefixBytes)).1 ≠ none ∧
      ∃ calls, ProbeCalls s.rest (calls ++ [.reset true]) ∧
        Restorable s (probeFormat probe portions (s.mark nativeStreamInfoPrefixBytes)).2
          calls := by
  obtain ⟨hends, counts, hreads, hle, hbytes⟩ :=
    readNBytes_reads portions flacHeaderBytes (s.mark nativeStreamInfoPrefixBytes)
  change ∀ bytes, _ → bytes = s.rest.take counts.sum ∧ _ at hbytes
  have hheader : ∀ {counts t}, (s.mark nativeStreamInfoPrefixBytes).ReadsFrom counts t →
      counts.sum ≤ nativeStreamInfoPrefixBytes →
      ∃ calls, ProbeCalls s.rest (calls ++ [.reset true]) ∧ Restorable s t calls := by
    intro counts t hreads hlimit
    exact ⟨_, .header counts hlimit,
      Restorable.of_reads rfl rfl (List.append_nil _).symm hreads hlimit⟩
  have hprefix : counts.sum ≤ nativeStreamInfoPrefixBytes := hle.trans (by decide)
  rw [probeFormat]
  rcases hmagic : readNBytes portions flacHeaderBytes (s.mark nativeStreamInfoPrefixBytes) with
    ⟨result, t⟩
  rw [hmagic] at hends hreads hbytes
  cases result with
  | none => exact absurd rfl hends
  | some result =>
  cases result with
  | error e => exact ⟨nofun, hheader hreads hprefix⟩
  | ok magic =>
  obtain ⟨hmagicBytes, hmagicLength⟩ := hbytes magic rfl
  dsimp only
  cases hdetails : classifyHeader magic with
  | error failure => exact ⟨nofun, hheader hreads hprefix⟩
  | ok details =>
  have hlength := length_of_classifyHeader hdetails
  cases details with
  | flac =>
    obtain ⟨hends, more, hmore, hle, -⟩ :=
      readNBytes_reads portions (nativeStreamInfoPrefixBytes - magic.length) t
    have hall : (counts ++ more).sum ≤ nativeStreamInfoPrefixBytes := by
      rw [List.sum_append, ← hmagicLength]
      have hmagicLe : magic.length ≤ nativeStreamInfoPrefixBytes := by
        rw [hlength]
        decide
      omega
    dsimp only
    rcases hprefixBytes : readNBytes portions (nativeStreamInfoPrefixBytes - magic.length) t with
      ⟨result, u⟩
    rw [hprefixBytes] at hends hmore
    have hdone := hheader (hreads.trans hmore) hall
    cases result with
    | none => exact absurd rfl hends
    | some result =>
    cases result with
    | error e => exact ⟨nofun, hdone⟩
    | ok bytes =>
    dsimp only
    split
    · exact ⟨nofun, hdone⟩
    · exact ⟨nofun, hdone⟩
  | oggFlac =>
    have hfirst : Restorable s t (.mark nativeStreamInfoPrefixBytes :: counts.map .read) :=
      Restorable.of_reads rfl rfl (List.append_nil _).symm hreads hprefix
    obtain ⟨hreset, hposition, hcontent, hcalls⟩ := hfirst.reset
    dsimp only
    rcases hrestored : t.reset with ⟨success, u⟩
    rw [hrestored] at hreset hposition hcontent hcalls
    cases hreset
    refine ⟨nofun, ?_⟩
    have hbudgeted : Budgeted (u.mark formatProbeOggByteLimit) formatProbeOggByteLimit
        ⟨u.mark formatProbeOggByteLimit, formatProbeOggByteLimit⟩ :=
      ⟨[], .refl _, Nat.zero_add _⟩
    obtain ⟨more, hmore, hbudget⟩ := hbudgeted.probeSession probe portions .oggFlac
    have hlimit : more.sum ≤ formatProbeOggByteLimit := by omega
    refine ⟨_, ?_, Restorable.of_reads hposition hcontent hcalls hmore hlimit⟩
    have hogg : s.rest.take flacHeaderBytes = oggMagic := by
      rw [← hlength, hmagicLength, ← hmagicBytes]
      exact eq_oggMagic_of_classifyHeader hdetails
    have hcalled := ProbeCalls.ogg counts more hogg (hmagicLength.symm.trans hlength) hlimit
    simpa only [List.append_assoc, List.cons_append, List.nil_append] using hcalled

/-- `getAudioFileFormat` returns or throws with the stream where it was. -/
theorem getAudioFileFormat_restores (portions : Portions ProbeFailure) (s : CallerStream) :
    (getAudioFileFormat probe portions s).1 ≠ none ∧
      (getAudioFileFormat probe portions s).2.position = s.position ∧
      (getAudioFileFormat probe portions s).2.content = s.content ∧
      ∃ calls, (getAudioFileFormat probe portions s).2.calls = s.calls ++ calls ∧
        ProbeCalls s.rest calls := by
  obtain ⟨hends, calls, hcalls, hrestorable⟩ := probeFormat_restorable probe portions s
  rw [getAudioFileFormat]
  rcases hprobed : probeFormat probe portions (s.mark nativeStreamInfoPrefixBytes) with ⟨result, t⟩
  rw [hprobed] at hends hrestorable
  obtain ⟨hreset, hposition, hcontent, hcalled⟩ := hrestorable.reset
  rcases hrestored : t.reset with ⟨success, u⟩
  rw [hrestored] at hreset hposition hcontent hcalled
  cases hreset
  cases result with
  | none => exact absurd rfl hends
  | some result =>
  cases result with
  | error failure =>
    dsimp only
    rw [hrestored]
    exact ⟨nofun, hposition, hcontent, _, hcalled, hcalls⟩
  | ok format =>
    dsimp only
    rw [hrestored]
    exact ⟨nofun, hposition, hcontent, _, hcalled, hcalls⟩

/-- Probing does not consume the stream, and no read beyond the budget reaches it. -/
theorem formatProbe_nonConsuming (portions : Portions ProbeFailure) (s : CallerStream) :
    ((getAudioFileFormat probe portions s).1 ≠ none ∧
      (getAudioFileFormat probe portions s).2.position = s.position ∧
      (getAudioFileFormat probe portions s).2.content = s.content ∧
      ∃ calls, (getAudioFileFormat probe portions s).2.calls = s.calls ++ calls ∧
        ProbeCalls s.rest calls) ∧
    ∀ budgeted : ProbeBudgetInputStream, budgeted.remaining = 0 →
      ProbeBudgetInputStream.handle portions .read budgeted =
          (.raised .budgetExceeded, budgeted) ∧
        ∀ capacity offset length, outOfBounds capacity offset length = false → length ≠ 0 →
          ProbeBudgetInputStream.handle portions (.readArray capacity offset length) budgeted =
            (.raised .budgetExceeded, budgeted) :=
  ⟨getAudioFileFormat_restores probe portions s,
    fun _ hremaining => handle_beyond_budget portions hremaining⟩

end JFlac.Sound
