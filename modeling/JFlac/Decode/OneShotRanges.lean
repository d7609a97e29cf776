import JFlac.Decode.Ending
import JFlac.Decode.SessionRanges

/-!
# One-shot decodes of a range

A one-shot decode from an offset, or of a range, hands the consumer the same rows as a request on a
session over the same audio. The two differ at one point: without a bound, a one-shot decode that
starts exactly at the end completes with no audio, where a session fails to seek.
-/

namespace JFlac.Decode

open Machine Lib

variable {D : Type}

/-- The answer of a one-shot decode. -/
def SessionRequest.onceAnswer (all : List (List Sample)) : SessionRequest → Answer
  | .toEnd firstSample =>
    if firstSample < 0 then .illegalArgument
    else if firstSample.toNat ≤ all.length then .rows (all.drop firstSample.toNat)
    else .behindEnd
  | .range firstSample maxFrames => SessionRequest.answer all (.range firstSample maxFrames)

/-- The arguments of the native call of a request. -/
def SessionRequest.once (container : ℤ) : SessionRequest → DecodeRequest
  | .toEnd firstSample => .from container firstSample
  | .range firstSample maxFrames => .range container firstSample maxFrames

/-- The one-shot decode of a request. -/
def SessionRequest.decodeOnce (F : LibFlac D) (J : Jvm) (fuel : ℕ) (container : ℤ) :
    SessionSource → SessionRequest → Outcome
  | .file, .toEnd firstSample => decodeFileFrom F J fuel true true container firstSample
  | .file, .range firstSample maxFrames =>
    decodeFileRange F J fuel true true container firstSample maxFrames
  | .channel _, .toEnd firstSample => decodeChannelFrom F J fuel true true container firstSample
  | .channel _, .range firstSample maxFrames =>
    decodeChannelRange F J fuel true true container firstSample maxFrames

/-! ## Failures -/

/-- Nothing that the consumer would hear was added. -/
abbrev AddsUnheard : Machine → Machine → Prop :=
  Adds fun e => e.chunk? = none ∧ e.isComplete = false

theorem AddsUnheard.heard {base events : List Event} {rows : List (List Sample)} {m m' : Machine}
    (h : AddsUnheard m m') (hhistory : m.history = base ++ events) (hheard : Heard events rows) :
    ∃ events', m'.history = base ++ events' ∧ Heard events' rows := by
  obtain ⟨extra, hextra, hquiet⟩ := h
  have hall := hheard.append (.of_quiet hquiet)
  rw [List.append_nil] at hall
  exact ⟨events ++ extra, by rw [hextra, hhistory, List.append_assoc], hall⟩

section
variable {F : LibFlac D} {J : Jvm} {source : Source} {blocks : List Frame}
  {At : List Frame → Stream D → Prop}

/-! ## Ends of a one-shot decode -/

/-- Nothing is reported of a decode that succeeded and finished. -/
theorem reportFailure_none {m : Machine} {checkMd5 : Bool}
    (hmd5 : (m.context.chainedLinkMd5Failed && checkMd5) = false) (what : String)
    (state : Option String) : reportFailure what checkMd5 true true state m = m := by
  simp only [reportFailure, hmd5, Bool.and_false, Bool.not_true, Bool.false_and, reportIf_false]

/-- A decode that succeeds and finishes completes. -/
theorem finishDecode_completes (hquiet : J.Quiet) {m : Machine} (hnone : m.pending = none)
    {s : Stream D} (hfinish : F.finish s.decoder = true) {checkMd5 : Bool}
    (hmd5 : (m.context.chainedLinkMd5Failed && checkMd5) = false) (what : String) :
    finishDecode F J what checkMd5 true s m =
      (F.callFinish s m).2.record (.java .onComplete .returned) := by
  unfold finishDecode
  dsimp only
  have hfinished : (F.callFinish s m).1 = true := hfinish
  have hlinks : ((F.callFinish s m).2.context.chainedLinkMd5Failed && checkMd5) = false := hmd5
  have hnone' : (F.callFinish s m).2.pending = none := hnone
  rw [hfinished, reportFailure_none hlinks, if_pos (by simp [exceptionCheck, hnone']),
    hquiet.callJava _ hnone']

/-- What the consumer has heard when a decode completes. -/
theorem Heard.completed {base events : List Event} {rows : List (List Sample)} {m : Machine}
    (hhistory : m.history = base ++ events) (hheard : Heard events rows) (F : LibFlac D)
    (s : Stream D) :
    ∃ events', ((F.callFinish s m).2.record (.java .onComplete .returned)).history =
      base ++ events' ∧ Served events' rows := by
  have hreturned : Heard [.returned .finish (F.finish s.decoder) (F.getState s.decoder) m.pending]
      [] := .of_quiet (by simp [Event.chunk?, Event.isComplete])
  have hall := Heard.append hheard hreturned
  rw [List.append_nil] at hall
  refine ⟨_ ++ [.java .onComplete .returned], ?_, _, rfl, hall⟩
  rw [← List.append_assoc, ← List.append_assoc, ← hhistory]
  rfl

theorem Playing.finishDecode (hquiet : J.Quiet) (hfinish : ∀ d, F.finish d = true)
    {base : List Event} {rows : List (List Sample)} {m : Machine} (h : Playing base rows m)
    (what : String) (s : Stream D) :
    (finishDecode F J what false true s m).pending = none ∧
      ∃ events, (finishDecode F J what false true s m).history = base ++ events ∧
        Served events (m.context.window rows) := by
  obtain ⟨events, hhistory, hheard⟩ := h.heard
  rw [finishDecode_completes hquiet h.unpending (hfinish s.decoder) (Bool.and_false _)]
  exact ⟨h.unpending, Heard.completed hhistory hheard F s⟩

/-- The end of an empty range. -/
theorem Playing.completeEmptyRange (hquiet : J.Quiet) (hfinish : ∀ d, F.finish d = true)
    {base : List Event} {rows : List (List Sample)} {m : Machine} (h : Playing base rows m)
    (s : Stream D) :
    (completeEmptyRange F J s m).machine.pending = none ∧
      ∃ events, (completeEmptyRange F J s m).machine.history = base ++ events ∧
        Served events (m.context.window rows) := by
  have hend := h.finishDecode hquiet hfinish "" s
  have hsame : (Decode.completeEmptyRange F J s m).machine =
      Decode.finishDecode F J "" false true s m := by
    have hfinished : (F.callFinish s m).1 = true := hfinish s.decoder
    unfold Decode.completeEmptyRange Decode.finishDecode
    simp only [reportFailure, hfinished, Bool.and_false, Bool.not_true, Bool.and_true,
      reportIf_false]
  rw [hsame]
  exact hend

/-- Nothing is pending yet, or a `FlacDecodeException` is. -/
def Machine.MayRaise (m : Machine) : Prop := m.pending = none ∨ m.Raised

theorem reportIf_raised {m : Machine} (h : m.MayRaise) (condition : Bool) (message : String) :
    (m.reportIf condition message).MayRaise ∧ AddsUnheard m (m.reportIf condition message) ∧
      (condition = true ∨ m.Raised → (m.reportIf condition message).Raised) := by
  rcases h with hnone | ⟨text, hpending⟩
  · cases condition with
    | false =>
      rw [reportIf_false]
      refine ⟨.inl hnone, .refl m, ?_⟩
      rintro (hfalse | hraised)
      · exact absurd hfalse (by simp)
      · exact hraised
    | true =>
      rw [reportIf_true hnone]
      exact ⟨.inr ⟨_, rfl⟩, .single (report_history _ _) ⟨rfl, rfl⟩, fun _ => ⟨_, rfl⟩⟩
  · rw [reportIf_pending hpending]
    exact ⟨.inr ⟨text, hpending⟩, .refl m, fun _ => ⟨text, hpending⟩⟩

/-- A failure is reported once, and the operation does not complete. -/
theorem finishDecode_fails {m : Machine} (h : m.MayRaise) {success : Bool} {s : Stream D}
    (hfailed : success = false ∨ F.finish s.decoder = false) (what : String) (checkMd5 : Bool) :
    (finishDecode F J what checkMd5 success s m).Raised ∧
      AddsUnheard m (finishDecode F J what checkMd5 success s m) := by
  have hreport : ∀ state, (reportFailure what checkMd5 success (F.finish s.decoder) state
        (F.callFinish s m).2).Raised ∧
      AddsUnheard m (reportFailure what checkMd5 success (F.finish s.decoder) state
        (F.callFinish s m).2) := by
    intro state
    have h₀ : (F.callFinish s m).2.MayRaise := h
    have hadds₀ : AddsUnheard m (F.callFinish s m).2 := .single rfl ⟨rfl, rfl⟩
    unfold reportFailure
    dsimp only
    generalize (F.callFinish s m).2 = m₀ at h₀ hadds₀
    obtain ⟨h₁, hadds₁, -⟩ := reportIf_raised h₀ (m₀.context.chainedLinkMd5Failed && checkMd5)
      linkMd5Message
    generalize m₀.reportIf _ _ = m₁ at h₁ hadds₁
    obtain ⟨h₂, hadds₂, hraised₂⟩ := reportIf_raised h₁ (!success)
      (failureMessage (what ++ " failed") state m₁.context)
    generalize m₁.reportIf _ _ = m₂ at h₂ hadds₂ hraised₂
    obtain ⟨h₃, hadds₃, hraised₃⟩ := reportIf_raised h₂
      (success && !F.finish s.decoder && checkMd5) md5Message
    generalize m₂.reportIf _ _ = m₃ at h₃ hadds₃ hraised₃
    obtain ⟨-, hadds₄, hraised₄⟩ := reportIf_raised h₃ (success && !F.finish s.decoder)
      (snprintf (what ++ " failed while finishing" ++ stateText state ++ "."))
    refine ⟨hraised₄ ?_, (((hadds₀.trans hadds₁).trans hadds₂).trans hadds₃).trans hadds₄⟩
    cases success with
    | false => exact .inr (hraised₃ (.inr (hraised₂ (.inl rfl))))
    | true =>
      rcases hfailed with hfalse | hfinish
      · exact absurd hfalse (by simp)
      · exact .inl (by rw [hfinish]; rfl)
  unfold finishDecode
  dsimp only
  obtain ⟨⟨message, hpending⟩, hadds⟩ :=
    hreport (copyResolvedDecoderState (F.getResolvedStateString s.decoder))
  have hfinish : (F.callFinish s m).1 = F.finish s.decoder := rfl
  rw [hfinish, if_neg (by simp [exceptionCheck, hpending])]
  exact ⟨⟨message, hpending⟩, hadds⟩

/-! ## From the initialised decoder on -/

/-- What libFLAC hands over of a stream when a one-shot decode starts at a sample: `blocks`, the first
of them in the seek unless the decode starts at zero. -/
def LibFlac.PlaysFrom (F : LibFlac D) (J : Jvm) (source : Source)
    (At : List Frame → Stream D → Prop) (s : Stream D) (firstSample : ℤ) (blocks : List Frame) :
    Prop :=
  if firstSample = 0 then At blocks s
  else ∃ block after s', blocks = block :: after ∧
    Delivers J source (F.seekAbsolute s.decoder firstSample.toNat) s.transportCalls [.pcm block] true
      s' ∧ At after s'

/-- The seek of a one-shot decode, and then the processing loop. -/
theorem Playing.seekToFirstSample (hquiet : J.Quiet) (hreads : F.Reads J source At)
    {base : List Event} {m : Machine} (h : Playing base [] m)
    (hplain : m.context.decodeChainedOgg = false) (hsource : m.context.source = source)
    {s : Stream D} {firstSample : ℤ} (hplays : F.PlaysFrom J source At s firstSample blocks)
    {fuel : ℕ} (hfuel : blocks.length < fuel) (hfits : ∀ b ∈ blocks, b.Fits) :
    ∃ s₁ m₁ rows s₂ m₂, seekToFirstSample F J firstSample s m = (true, s₁, m₁) ∧
      m₁.pending = none ∧ m₁.context.sawError = false ∧
      LoopPlayed m.context base (rowsOf blocks) rows m₂ ∧
      Decode.processDecodeStream F J fuel s₁ m₁ = (some (m.context.passes (rowsOf blocks)), s₂,
        if m.context.passes (rowsOf blocks) then m₂
        else m₂.throwDecode (physicalEofMessage m₂.context)) := by
  unfold Decode.seekToFirstSample
  unfold LibFlac.PlaysFrom at hplays
  by_cases hzero : firstSample = 0
  · rw [if_pos hzero] at hplays ⊢
    obtain ⟨rows, s', m', hends, hloop, -⟩ :=
      h.processDecodeStream hquiet hreads hfuel hfits hplain hsource hplays
    rw [List.nil_append] at hends hloop
    exact ⟨s, m, rows, s', m', rfl, h.unpending, h.error, hends, hloop⟩
  · rw [if_neg hzero] at hplays ⊢
    obtain ⟨block, after, s', rfl, hdelivers, hat⟩ := hplays
    rw [List.length_cons] at hfuel
    obtain ⟨m₁, rows, s₂, m₂, hcall, hnone, herror, hends, hloop, -⟩ :=
      h.seekBlock hquiet hreads hplain hsource hdelivers hat (Nat.lt_of_succ_lt hfuel) hfits
    exact ⟨s', m₁, rows, s₂, m₂, hcall, hnone, herror, hends, hloop⟩

/-- What a one-shot decode is handed from its first sample on, unless its seek fails. -/
def LibFlac.StartsFrom (F : LibFlac D) (J : Jvm) (source : Source)
    (At : List Frame → Stream D → Prop) (s : Stream D) (firstSample : ℤ) :
    Option (List Frame) → Prop
  | some blocks => F.PlaysFrom J source At s firstSample blocks
  | none => firstSample ≠ 0 ∧ F.SeeksTo J source At s firstSample.toNat none

/-- The rows that a one-shot decode finds: at zero it does not seek. -/
def SessionRequest.onceFound (total : ℕ) (all : List (List Sample)) (request : SessionRequest) :
    Option (List (List Sample)) :=
  if request.firstSample = 0 then some all else request.found total all

/-- Where there is audio, the seek makes no difference. -/
theorem SessionRequest.onceFound_of_pos {total : ℕ} {all : List (List Sample)}
    (hpos : 0 < all.length) (request : SessionRequest) :
    request.onceFound total all = request.found total all := by
  unfold SessionRequest.onceFound
  split
  · rename_i hzero
    unfold SessionRequest.found
    rw [hzero, Int.toNat_zero, if_pos ⟨hpos, Nat.eq_zero_or_pos total⟩, List.drop_zero]
  · rfl

/-- Where a one-shot decode starts. -/
theorem LibFlac.Locates.starts {total : ℕ} (hreads : F.Locates J source blocks total At)
    {s : Stream D} (hat : At blocks s) (hfits : ∀ b ∈ blocks, b.Fits) (request : SessionRequest) :
    ∃ found, F.StartsFrom J source At s request.firstSample found ∧
      found.map rowsOf = request.onceFound total (rowsOf blocks) ∧
      ∀ played ∈ found, played.length ≤ blocks.length ∧ ∀ b ∈ played, b.Fits := by
  unfold SessionRequest.onceFound
  by_cases hzero : request.firstSample = 0
  · refine ⟨some blocks, (if_pos hzero).mpr hat, by rw [if_pos hzero]; rfl, ?_⟩
    rintro played ⟨⟩
    exact ⟨Nat.le_refl _, hfits⟩
  · obtain ⟨found, hseeks, hfound, hplayed⟩ := hreads.seeks hfits hat request
    refine ⟨found, ?_, by rw [if_neg hzero]; exact hfound, hplayed⟩
    cases found with
    | none => exact ⟨hzero, hseeks⟩
    | some played => exact (if_neg hzero).mpr hseeks

/-- What is known about the machine in which a request reaches its initialised decoder. -/
structure Initialised (request : DecodeRequest) (source : Source) (m : Machine) : Prop where
  pending : m.pending = none
  context : m.context = request.context source
  heard : Heard m.history []

/-- A one-shot decode has returned: it completed, or it raised, when the consumer had these rows. -/
def Outcome.Ends (outcome : Outcome) (success : Bool) (rows : List (List Sample)) : Prop :=
  outcome.finished = true ∧
    if success then outcome.machine.pending = none ∧ Served outcome.machine.history rows
    else outcome.machine.Raised ∧ Heard outcome.machine.history rows

theorem Outcome.ends_iff {outcome : Outcome} {success : Bool} {rows : List (List Sample)} :
    outcome.Ends success rows ↔
      outcome.finished = true ∧ EndsWith [] outcome.machine (success, rows) := by
  refine and_congr_right fun _ => ⟨fun h => ⟨_, rfl, h⟩, ?_⟩
  rintro ⟨events, hhistory, h⟩
  rw [List.nil_append] at hhistory
  rwa [hhistory]

/-- The seek, the loop and the end of a one-shot decode. -/
theorem Playing.seekAndProcess (hquiet : J.Quiet) (hfinish : ∀ d, F.finish d = true)
    (hreads : F.Reads J source At) {request : DecodeRequest} (hmd5 : request.checkMd5 = false)
    {m : Machine} (h : Playing [] [] m) (hplain : m.context.decodeChainedOgg = false)
    (hsource : m.context.source = source) {s : Stream D} {found : Option (List Frame)}
    (hstarts : F.StartsFrom J source At s request.firstSample found) {fuel : ℕ}
    (hfuel : ∀ blocks ∈ found, blocks.length < fuel)
    (hfits : ∀ blocks ∈ found, ∀ b ∈ blocks, b.Fits) (what : String) :
    (seekAndProcess F J fuel what request s m).Ends
      (m.context.seekEnding (found.map rowsOf)).1 (m.context.seekEnding (found.map rowsOf)).2 := by
  unfold Decode.seekAndProcess
  dsimp only
  cases found with
  | none =>
    obtain ⟨hzero, rest, s', hdelivers, -⟩ := hstarts
    obtain ⟨m₁, hcall, hplaying, -⟩ :=
      h.call hquiet hsource [] (by simp) hdelivers .seekAbsolute
    obtain ⟨events, hhistory, hheard⟩ := hplaying.heard
    rw [rowsOf_nil, List.append_nil, DecodeContext.window_nil] at hheard
    unfold Decode.seekToFirstSample
    rw [if_neg hzero, hcall]
    dsimp only
    rw [if_pos (by simp)]
    unfold abandonDecode
    dsimp only
    rw [reportIf_true hplaying.unpending]
    generalize failureMessage _ _ _ = message
    have hadds : AddsUnheard m₁ (F.callFinish s' (m₁.report message)).2 :=
      .trans (.single (report_history m₁ message) ⟨rfl, rfl⟩) (.single rfl ⟨rfl, rfl⟩)
    obtain ⟨events', hhistory', hheard'⟩ := hadds.heard hhistory hheard
    exact Outcome.ends_iff.mpr ⟨rfl, events', hhistory', ⟨message, rfl⟩, hheard'⟩
  | some blocks =>
    obtain ⟨s₁, m₂, rows, s₂, m₃, hseek, hnone₂, herror₂, hends, hloop⟩ :=
      h.seekToFirstSample hquiet hreads hplain hsource hstarts (hfuel _ rfl) (hfits _ rfl)
    rw [hseek]
    dsimp only
    rw [if_neg (by simp [exceptionCheck, hnone₂, herror₂])]
    unfold processAndFinish
    rw [hloop, hmd5]
    dsimp only [DecodeContext.seekEnding, Option.map, Option.elim]
    rw [← hends.window, ← hends.advances.window]
    cases m.context.passes (rowsOf blocks) with
    | true =>
      obtain ⟨hnone', events', hhistory', hserved⟩ :=
        hends.playing.finishDecode hquiet hfinish what s₂
      exact Outcome.ends_iff.mpr ⟨rfl, events', hhistory', hnone', hserved⟩
    | false =>
      obtain ⟨events', hhistory', hheard'⟩ := hends.playing.heard
      have hthrown : Machine.MayRaise (m₃.throwDecode (physicalEofMessage m₃.context)) :=
        .inr ⟨_, rfl⟩
      obtain ⟨hraised, hadds⟩ := finishDecode_fails (J := J) (s := s₂) hthrown (.inl rfl) what false
      have hadds' : AddsUnheard m₃ _ :=
        .trans (.single (throwDecode_history m₃ (physicalEofMessage m₃.context)) ⟨rfl, rfl⟩) hadds
      obtain ⟨events'', hhistory'', hheard''⟩ := hadds'.heard hhistory' hheard'
      exact Outcome.ends_iff.mpr ⟨rfl, events'', hhistory'', hraised, hheard''⟩

/-- How a one-shot decode ends: the checks before the seek, and the frame-count check at the end. -/
def DecodeContext.ending (c : DecodeContext) (found : Option (List (List Sample))) : Ending :=
  if 0 < c.streamTotalSamples ∧ c.streamTotalSamples < c.firstSample then (false, [])
  else if c.rangeComplete = true ∨ (0 < c.streamTotalSamples ∧ c.firstSample = c.streamTotalSamples)
  then (true, [])
  else c.seekEnding found

/-- The context of a request with its STREAMINFO. -/
def DecodeRequest.reading (request : DecodeRequest) (source : Source) (info : StreamInfo) :
    DecodeContext :=
  (request.context source).captured info

/-- A request whose metadata was read is ready to play. -/
theorem Initialised.reads (hquiet : J.Quiet) {request : DecodeRequest}
    (hplain : request.decodeChainedOgg = false)
    (hmax : request.rangeLimited = true → 0 ≤ request.maxFrames ∧ request.maxFrames ≤ longMax)
    {m : Machine} (hm : Initialised request source m) {decoder : D} {calls : List TransportCall}
    {info : StreamInfo} {count : ℕ} {s : Stream D}
    (hdelivers : Delivers J source (F.processUntilEndOfMetadata decoder) calls
      ((.streamInfo info :: List.replicate count .other).map .metadata) true s) :
    ∃ m', F.call J .processUntilEndOfMetadata (F.processUntilEndOfMetadata decoder) calls m =
        (true, s, m') ∧
      m'.context = request.reading source info ∧ Playing [] [] m' := by
  obtain ⟨m', events, hcall, hnone, hcontext, hhistory, hheard⟩ :=
    hquiet.callMetadata hdelivers (F := F) hm.pending
      (by rw [hm.context]; exact hplain) (by rw [hm.context]; rfl) .processUntilEndOfMetadata
  rw [hm.context] at hcontext
  refine ⟨m', hcall, hcontext, .begin hnone hhistory (hm.heard.append hheard) ?_ ?_ ?_ ?_ ?_⟩
  · rw [hcontext]
    rfl
  · rw [hcontext]
    rfl
  · rw [hcontext]
    show (if request.rangeLimited then request.maxFrames.toNat else 0) < _
    unfold longMax at hmax
    split
    · rename_i hlimited
      have := hmax hlimited
      omega
    · exact Nat.zero_lt_succ _
  · rw [hcontext]
    rfl
  · rw [hcontext]
    show (request.rangeLimited && request.maxFrames == 0) = (request.rangeLimited &&
      decide ((if request.rangeLimited then request.maxFrames.toNat else 0) = 0))
    cases hlimited : request.rangeLimited with
    | false => rfl
    | true =>
      have hnonneg := (hmax hlimited).1
      rw [Bool.true_and, Bool.true_and, if_pos rfl]
      exact decide_eq_decide.mpr (by omega)

theorem decodeInitialised_ends (hquiet : J.Quiet) (hfinish : ∀ d, F.finish d = true)
    (hreads : F.Reads J source At) {request : DecodeRequest}
    (hseeks : request.seekBeforeDecode = true) (hplain : request.decodeChainedOgg = false)
    (hmd5 : request.checkMd5 = false)
    (hmax : request.rangeLimited = true → 0 ≤ request.maxFrames ∧ request.maxFrames ≤ longMax)
    {m : Machine} (hm : Initialised request source m) {decoder : D} {calls : List TransportCall}
    {info : StreamInfo} {count : ℕ} {s : Stream D}
    (hdelivers : Delivers J source (F.processUntilEndOfMetadata decoder) calls
      ((.streamInfo info :: List.replicate count .other).map .metadata) true s)
    {found : Option (List Frame)}
    (hstarts : info.totalSamples = 0 ∨ request.firstSample.toNat < info.totalSamples →
      F.StartsFrom J source At s request.firstSample found)
    {fuel : ℕ} (hfuel : ∀ blocks ∈ found, blocks.length < fuel)
    (hfits : ∀ blocks ∈ found, ∀ b ∈ blocks, b.Fits) (what : String) :
    (decodeInitialised F J fuel what request ⟨decoder, calls⟩ m).Ends
      ((request.reading source info).ending (found.map rowsOf)).1
      ((request.reading source info).ending (found.map rowsOf)).2 := by
  obtain ⟨m₁, hcall, hcontext, hplaying⟩ := hm.reads hquiet hplain hmax hdelivers
  generalize hc : request.reading source info = c at hcontext
  have hfirst : c.firstSample = request.firstSample.toNat := by rw [← hc]; rfl
  have htotal : c.streamTotalSamples = info.totalSamples := by rw [← hc]; rfl
  have hinfo : c.sawStreamInfo = true := by rw [← hc]; rfl
  have hplain₁ : c.decodeChainedOgg = false := by rw [← hc]; exact hplain
  have hsource : c.source = source := by rw [← hc]; rfl
  have hafter : m₁.context.rangeStartsAfterStream request.firstSample =
      decide (0 < c.streamTotalSamples ∧ c.streamTotalSamples < c.firstSample) := by
    unfold DecodeContext.rangeStartsAfterStream
    rw [hcontext, hinfo, hfirst, Bool.true_and, Bool.decide_and]
  have hatEnd : m₁.context.rangeStartsAtStreamEnd request.firstSample =
      decide (0 < c.streamTotalSamples ∧ c.firstSample = c.streamTotalSamples) := by
    unfold DecodeContext.rangeStartsAtStreamEnd
    rw [hcontext, hinfo, hfirst, Bool.true_and, Bool.decide_and]
  obtain ⟨events, hhistory, hheard⟩ := hplaying.heard
  rw [DecodeContext.window_nil] at hheard
  unfold decodeInitialised DecodeContext.ending
  dsimp only
  rw [if_pos (by rw [hseeks, Bool.true_or]), hcall]
  dsimp only
  rw [if_neg (by simp [exceptionCheck, hplaying.unpending, hplaying.error])]
  by_cases hbehind : 0 < c.streamTotalSamples ∧ c.streamTotalSamples < c.firstSample
  · rw [if_pos (by rw [hafter, decide_eq_true hbehind]), if_pos hbehind]
    have hadds : AddsUnheard m₁ ((F.callFinish s m₁).2.throwDecode rangeAfterStreamMessage) :=
      .trans (.single rfl ⟨rfl, rfl⟩) (.single (throwDecode_history _ _) ⟨rfl, rfl⟩)
    obtain ⟨events', hhistory', hheard'⟩ := hadds.heard hhistory hheard
    exact Outcome.ends_iff.mpr ⟨rfl, events', hhistory', ⟨_, rfl⟩, hheard'⟩
  rw [if_neg (by rw [hafter, decide_eq_false hbehind]; simp), if_neg hbehind]
  by_cases hempty : c.rangeComplete = true ∨
      (0 < c.streamTotalSamples ∧ c.firstSample = c.streamTotalSamples)
  · rw [if_pos (by rw [hatEnd, hcontext]; simpa using hempty), if_pos hempty]
    obtain ⟨hnone', events', hhistory', hserved⟩ := hplaying.completeEmptyRange hquiet hfinish s
    rw [DecodeContext.window_nil] at hserved
    exact Outcome.ends_iff.mpr ⟨rfl, events', hhistory', hnone', hserved⟩
  · rw [if_neg (by rw [hatEnd, hcontext]; simpa using hempty), if_neg hempty, ← hcontext]
    exact hplaying.seekAndProcess hquiet hfinish hreads hmd5 (by rw [hcontext]; exact hplain₁)
      (by rw [hcontext]; exact hsource) (hstarts (by omega)) hfuel hfits what

/-! ## Opening -/

/-- What is known about the machine in which the transport of a request is ready. -/
structure Prepared (request : DecodeRequest) (source : Source) (m : Machine) : Prop where
  pending : m.pending = none
  context : m.context = (oneShotContext request).prepared.withSource source
  heard : Heard m.history []

/-- A request on a file that is not refused. -/
theorem decodeFileInternal_prepares (hquiet : J.Quiet) {request : DecodeRequest}
    (hcontainer : isValidContainer request.container = true)
    (hrequest : rejectRequest request = none) (fuel : ℕ) :
    ∃ m, decodeFileInternal F J fuel true true request = decodePrepared F J fuel .file request [] m ∧
      Prepared request DecodeContext.zero.source m := by
  obtain ⟨m, events, hprepared, hnone, hcontext, hhistory, hheard⟩ :=
    hquiet.prepareDecodeContext (m := (Machine.start.record (.java .encodePath .returned)).withContext
      (oneShotContext request)) rfl
  refine ⟨m, ?_, hnone, hcontext, ?_⟩
  · unfold decodeFileInternal
    dsimp only
    rw [if_neg (by simp [hcontainer]), if_neg (by simp), hrequest]
    dsimp only
    rw [hquiet.jstringToUtf8 rfl]
    dsimp only
    rw [if_neg (by simp), hprepared]
    exact if_neg (by simp)
  · rw [hhistory]
    exact Heard.append (.of_quiet (by simp [Machine.start, Event.chunk?, Event.isComplete])) hheard

/-- A request on a channel that is not refused. -/
theorem decodeChannelInternal_prepares (hquiet : J.Quiet) {request : DecodeRequest}
    (hcontainer : isValidContainer request.container = true)
    (hrequest : rejectRequest request = none) {position : ℤ} {bytes : List UInt8}
    (hstart : J.transport [] .position = .ok ⟨position, bytes⟩) (hnonneg : 0 ≤ position)
    (fuel : ℕ) :
    ∃ m, decodeChannelInternal F J fuel true true request =
        decodePrepared F J fuel .seekableChannel request [.position] m ∧
      Prepared request (channelSource position) m := by
  obtain ⟨m, events, hprepared, hnone, hcontext, hhistory, hheard⟩ :=
    hquiet.prepareDecodeContext (m := Machine.start.withContext (oneShotContext request)) rfl
  obtain ⟨m', events', hchannel, hnone', hcontext', hhistory', hheard'⟩ :=
    hquiet.prepareDecodeSeekableChannel hstart hnonneg hnone
  refine ⟨m', ?_, hnone', ?_, ?_⟩
  · unfold decodeChannelInternal
    dsimp only
    rw [if_neg (by simp [hcontainer]), if_neg (by simp), hrequest]
    dsimp only
    rw [hprepared]
    dsimp only
    rw [if_neg (by simp), hchannel]
  · rw [hcontext', hcontext]
    rfl
  · rw [hhistory', hhistory]
    exact hheard.append hheard'

theorem Prepared.initialises {request : DecodeRequest} {m : Machine}
    (h : Prepared request source m) {transport : Transport} {decoder : D}
    (hconfigures : F.Configures transport request decoder) (fuel : ℕ)
    (calls : List TransportCall) :
    ∃ m' what, decodePrepared F J fuel transport request calls m =
        decodeInitialised F J fuel what request ⟨decoder, calls⟩ m' ∧
      Initialised request source m' := by
  obtain ⟨d₀, d₁, d₂, hnew, hchained, hmd5, hinit⟩ := hconfigures.configures
  refine ⟨m.withContext (m.context.configureDecodeRange request.firstSample request.rangeLimited
    request.maxFrames), "FLAC " ++ transport.label ++ "decoding", ?_, h.pending, ?_, h.heard⟩
  · have hchaining : ∀ m, configureDecoderChaining F request.container request.decodeChainedOgg d₀ m =
        (some d₁, m) := by
      intro m
      unfold configureDecoderChaining
      cases hflag : request.decodeChainedOgg with
      | false =>
        rw [hflag, if_neg (by simp)] at hchained
        rw [hchained]
        rfl
      | true =>
        rw [hflag, if_pos rfl] at hchained
        rw [if_neg (by simp), if_neg (by simp [hchained.1]), hchained.2]
    have hchecking : ∀ m, configureDecoderMd5Checking F request.checkMd5 d₁ m = (some d₂, m) := by
      intro m
      unfold configureDecoderMd5Checking
      cases hflag : request.checkMd5 with
      | false =>
        rw [hflag, if_neg (by simp)] at hmd5
        rw [hmd5]
        rfl
      | true =>
        rw [hflag, if_pos rfl] at hmd5
        rw [if_neg (by simp), hmd5]
    unfold decodePrepared
    dsimp only
    rw [hnew]
    dsimp only
    rw [hchaining]
    dsimp only
    rw [hchecking]
    dsimp only
    rw [hinit]
  · rw [withContext_context, h.context]
    rfl

/-! ## One-shot requests -/

/-- The native body that decodes from a source. -/
def SessionSource.decodeInternal (F : LibFlac D) (J : Jvm) (fuel : ℕ) :
    SessionSource → DecodeRequest → Outcome
  | .file, request => decodeFileInternal F J fuel true true request
  | .channel _, request => decodeChannelInternal F J fuel true true request

theorem SessionRequest.decodeOnce_eq (container : ℤ) (input : SessionSource)
    (request : SessionRequest) (fuel : ℕ) :
    request.decodeOnce F J fuel container input =
      input.decodeInternal F J fuel (request.once container) := by
  cases input <;> cases request <;> rfl

theorem SessionRequest.once_settings (container : ℤ) (request : SessionRequest) :
    (request.once container).seekBeforeDecode = true ∧
      (request.once container).decodeChainedOgg = false ∧
      (request.once container).checkMd5 = false ∧
      (request.once container).container = container := by
  cases request <;> exact ⟨rfl, rfl, rfl, rfl⟩

theorem SessionSource.decodeInternal_refused (input : SessionSource) {request : DecodeRequest}
    (hcontainer : isValidContainer request.container = true) {message : String}
    (hrequest : rejectRequest request = some message) (fuel : ℕ) :
    input.decodeInternal F J fuel request = ⟨true, Machine.start.throwIllegalArgument message⟩ := by
  cases input with
  | file =>
    unfold SessionSource.decodeInternal decodeFileInternal
    dsimp only
    rw [if_neg (by simp [hcontainer]), if_neg (by simp), hrequest]
  | channel position =>
    unfold SessionSource.decodeInternal decodeChannelInternal
    dsimp only
    rw [if_neg (by simp [hcontainer]), if_neg (by simp), hrequest]

theorem rejectRequest_range (container firstSample maxFrames : ℤ) :
    rejectRequest (.range container firstSample maxFrames) =
      validateDecodeRequest firstSample true maxFrames := by
  unfold rejectRequest DecodeRequest.range
  simp only [Bool.or_true, if_true, Bool.false_and, Bool.false_eq_true, if_false]
  split <;> simp_all

/-- The native checks refuse the invalid requests. -/
theorem rejectRequest_once (container : ℤ) {request : SessionRequest} :
    rejectRequest (request.once container) = none ↔ request.Valid := by
  cases request with
  | toEnd firstSample =>
    have hvalid : (SessionRequest.toEnd firstSample).Valid ↔ ¬ firstSample < 0 :=
      ⟨fun h => Int.not_lt.mpr h.1, fun h => ⟨Int.not_lt.mp h, by simp [SessionRequest.maxFrames?]⟩⟩
    rw [hvalid]
    by_cases hneg : firstSample < 0 <;>
      simp [rejectRequest, SessionRequest.once, DecodeRequest.from, validateDecodeRequest, hneg]
  | range firstSample maxFrames =>
    show rejectRequest (.range container firstSample maxFrames) = none ↔ _
    rw [rejectRequest_range, validateDecodeRequest_eq_none]
    constructor
    · intro h
      refine ⟨?_, ?_⟩
      · dsimp only [SessionRequest.firstSample]
        omega
      · dsimp only [SessionRequest.firstSample, SessionRequest.maxFrames?]
        rintro n ⟨⟩
        omega
    · rintro ⟨hnonneg, hbound⟩
      have hmax := hbound maxFrames rfl
      dsimp only [SessionRequest.firstSample] at hnonneg hmax
      omega

theorem SessionRequest.once_firstSample (container : ℤ) (request : SessionRequest) :
    (request.once container).firstSample = request.firstSample := by
  cases request <;> rfl

/-- A one-shot request ends as its arguments say. -/
theorem SessionRequest.once_ending {request : SessionRequest} (hvalid : request.Valid)
    (container : ℤ) (source : Source) (info : StreamInfo)
    (found : Option (List (List Sample))) :
    ((request.once container).reading source info).ending found =
      request.ending info.totalSamples found := by
  cases request with
  | toEnd firstSample =>
    have hseek : ((DecodeRequest.from container firstSample).reading source info).seekEnding found =
        found.elim (false, []) fun rows => (toEnd firstSample).played info.totalSamples rows := by
      rcases found with _ | rows
      · rfl
      · show (DecodeContext.passes _ rows, rows) = _
        rw [DecodeContext.passes_unbounded rfl rfl]
        rfl
    rw [ending_toEnd, ← hseek]
    show (if _ then _ else if false = true ∨ _ then _ else _) = _
    simp only [Bool.false_eq_true, false_or]
    rfl
  | range firstSample maxFrames =>
    have hseek : ((DecodeRequest.range container firstSample maxFrames).reading source
        info).seekEnding found = found.elim (false, []) fun rows =>
          (range firstSample maxFrames).played info.totalSamples rows := by
      rcases found with _ | rows
      · rfl
      · show (DecodeContext.passes _ rows, rows.take maxFrames.toNat) = _
        rw [DecodeContext.passes_bounded rfl rfl]
        rfl
    rw [ending_range, ← hseek]
    show (if _ then _ else if (true && maxFrames == 0) = true ∨ _ then _ else _) = _
    simp only [Bool.true_and, beq_iff_eq]
    rfl

/-- A one-shot request that is not refused, over any stream. -/
theorem decodeOnce_ends (hquiet : J.Quiet) (hfinish : ∀ d, F.finish d = true)
    (input : SessionSource) (hstarts : input.Starts J) {container : ℤ}
    (hcontainer : isValidContainer container = true) {info : StreamInfo} {s : Stream D}
    (hopens : F.Opens J input.fields input.transport container input.calls info s)
    (hreads : F.Reads J input.fields At) {request : SessionRequest} (hvalid : request.Valid)
    {found : Option (List Frame)}
    (hfrom : info.totalSamples = 0 ∨ request.firstSample.toNat < info.totalSamples →
      F.StartsFrom J input.fields At s request.firstSample found)
    {fuel : ℕ} (hfuel : ∀ blocks ∈ found, blocks.length < fuel)
    (hfits : ∀ blocks ∈ found, ∀ b ∈ blocks, b.Fits) :
    (request.decodeOnce F J fuel container input).Ends
      (request.ending info.totalSamples (found.map rowsOf)).1
      (request.ending info.totalSamples (found.map rowsOf)).2 := by
  obtain ⟨decoder, decoder', count, hnew, hinit, hdelivers⟩ := hopens.opens
  obtain ⟨hseeks, hplain, hmd5, hrequestContainer⟩ := request.once_settings container
  have hrequest := (rejectRequest_once container).mpr hvalid
  have hcontainer' : isValidContainer (request.once container).container = true := by
    rw [hrequestContainer]
    exact hcontainer
  have hmax : (request.once container).rangeLimited = true →
      0 ≤ (request.once container).maxFrames ∧ (request.once container).maxFrames ≤ longMax := by
    cases request with
    | toEnd firstSample => exact fun h => absurd h Bool.false_ne_true
    | range firstSample maxFrames =>
      obtain ⟨hnonneg, hbound⟩ := hvalid
      have hmax := hbound maxFrames rfl
      dsimp only [SessionRequest.firstSample, SessionRequest.once, DecodeRequest.range]
        at hnonneg hmax ⊢
      intro _
      omega
  have hopened : ∃ m, input.decodeInternal F J fuel (request.once container) =
      decodePrepared F J fuel input.transport (request.once container) input.calls m ∧
        Prepared (request.once container) input.fields m := by
    cases input with
    | file => exact decodeFileInternal_prepares hquiet hcontainer' hrequest fuel
    | channel position =>
      obtain ⟨hnonneg, bytes, hstart⟩ := hstarts
      exact decodeChannelInternal_prepares hquiet hcontainer' hrequest hstart hnonneg fuel
  obtain ⟨m, hprepared, hm⟩ := hopened
  have hconfigures : F.Configures input.transport (request.once container) decoder' :=
    ⟨decoder, decoder, decoder, hnew, by rw [hplain]; rfl, by rw [hmd5]; rfl,
      by rw [hrequestContainer]; exact hinit⟩
  obtain ⟨m', what, hdecode, hm'⟩ := hm.initialises hconfigures fuel input.calls
  rw [← request.once_firstSample container] at hfrom
  rw [request.decodeOnce_eq, hprepared, hdecode, ← request.once_ending hvalid container input.fields]
  exact decodeInitialised_ends hquiet hfinish hreads hseeks hplain hmd5 hmax hm' hdelivers hfrom
    hfuel hfits what

/-- An invalid one-shot request is refused. -/
theorem decodeOnce_refused (input : SessionSource) {container : ℤ}
    (hcontainer : isValidContainer container = true) {request : SessionRequest}
    (hinvalid : ¬ request.Valid) (fuel : ℕ) :
    ∃ message, request.decodeOnce F J fuel container input =
      ⟨true, Machine.start.throwIllegalArgument message⟩ := by
  obtain ⟨-, -, -, hrequestContainer⟩ := request.once_settings container
  have hcontainer' : isValidContainer (request.once container).container = true := by
    rw [hrequestContainer]
    exact hcontainer
  obtain ⟨message, hrequest⟩ := Option.ne_none_iff_exists'.mp
    fun h => hinvalid ((rejectRequest_once container).mp h)
  rw [request.decodeOnce_eq]
  exact ⟨message, input.decodeInternal_refused hcontainer' hrequest fuel⟩

/-- How a one-shot request ends over a stream that has exactly the frames `all` it declares. -/
def SessionRequest.onceSlice (all : List (List Sample)) : SessionRequest → Ending
  | toEnd firstSample =>
    if firstSample.toNat ≤ all.length then (true, all.drop firstSample.toNat) else (false, [])
  | range firstSample maxFrames => (range firstSample maxFrames).slice all

theorem SessionRequest.ending_found {all : List (List Sample)} (hpos : 0 < all.length)
    (request : SessionRequest) :
    request.ending all.length (request.found all.length all) = request.onceSlice all := by
  cases request with
  | range firstSample maxFrames => exact sessionEnding_found hpos (range firstSample maxFrames)
  | toEnd firstSample =>
    show _ = if firstSample.toNat ≤ all.length then _ else _
    rw [ending_toEnd]
    by_cases hbehind : all.length < firstSample.toNat
    · rw [if_pos ⟨hpos, hbehind⟩, if_neg (Nat.not_le.mpr hbehind)]
    rw [if_neg fun h => hbehind h.2, if_pos (Nat.le_of_not_lt hbehind)]
    by_cases hend : firstSample.toNat = all.length
    · rw [if_pos ⟨hpos, hend⟩, hend, List.drop_length]
    · -- inside the stream a session ends the same way
      have hlt : firstSample.toNat < all.length := by omega
      have hsession := sessionEnding_found hpos (toEnd firstSample)
      rw [if_neg fun h => hend h.2]
      exact hsession.trans (if_pos hlt)

/-- Over a stream with the frames it declares, a one-shot request ends with its slice. -/
theorem decodeOnce_slices (hquiet : J.Quiet) (hfinish : ∀ d, F.finish d = true)
    (input : SessionSource) (hstarts : input.Starts J) {container : ℤ}
    (hcontainer : isValidContainer container = true) {info : StreamInfo} {s : Stream D}
    (hopens : F.Opens J input.fields input.transport container input.calls info s)
    (hreads : F.Seekable J input.fields blocks At) (hat : At blocks s)
    (hfits : ∀ b ∈ blocks, b.Fits) (htotal : info.totalSamples = (rowsOf blocks).length)
    (hpos : 0 < (rowsOf blocks).length) {fuel : ℕ} (hfuel : blocks.length < fuel)
    {request : SessionRequest} (hvalid : request.Valid) :
    (request.decodeOnce F J fuel container input).Ends
      (request.onceSlice (rowsOf blocks)).1 (request.onceSlice (rowsOf blocks)).2 := by
  obtain ⟨found, hfrom, hfound, hplayed⟩ := hreads.locates.starts hat hfits request
  have hends := decodeOnce_ends hquiet hfinish input hstarts hcontainer hopens hreads.toReads hvalid
    (fun _ => hfrom) (fun played hp => Nat.lt_of_le_of_lt (hplayed played hp).1 hfuel)
    fun played hp => (hplayed played hp).2
  rwa [hfound, htotal, SessionRequest.onceFound_of_pos hpos, SessionRequest.ending_found hpos]
    at hends

theorem onceAnswer_eq_answer_iff {all : List (List Sample)} {request : SessionRequest} :
    request.onceAnswer all = request.answer all ↔ request ≠ .toEnd all.length := by
  cases request with
  | range firstSample maxFrames => exact iff_of_true rfl (by simp)
  | toEnd firstSample =>
    dsimp only [SessionRequest.onceAnswer, SessionRequest.answer]
    rw [ne_eq, SessionRequest.toEnd.injEq]
    by_cases hneg : firstSample < 0
    · rw [if_pos hneg, if_pos hneg]
      exact iff_of_true rfl (by omega)
    rw [if_neg hneg, if_neg hneg]
    rcases Nat.lt_trichotomy firstSample.toNat all.length with hlt | heq | hgt
    · rw [if_pos (Nat.le_of_lt hlt), if_pos hlt]
      exact iff_of_true rfl (by omega)
    · rw [if_pos (Nat.le_of_eq heq), if_neg (by omega)]
      exact iff_of_false (by simp) (by omega)
    · rw [if_neg (by omega), if_neg (by omega)]
      exact iff_of_true rfl (by omega)

/-- A valid one-shot request is answered with its slice. -/
theorem SessionRequest.answered_onceSlice {request : SessionRequest} (hvalid : request.Valid)
    {all : List (List Sample)} {m : Machine} (h : EndsWith [] m (request.onceSlice all)) :
    Answered (request.onceAnswer all) m.pending m.history := by
  cases request with
  | range firstSample maxFrames =>
    obtain ⟨events, hhistory, hanswered⟩ := answered_slice hvalid h
    rw [List.nil_append] at hhistory
    rwa [hhistory]
  | toEnd firstSample =>
    have hnonneg : ¬ firstSample < 0 := Int.not_lt.mpr hvalid.1
    by_cases hle : firstSample.toNat ≤ all.length
    · rw [show onceSlice all (toEnd firstSample) = (true, all.drop firstSample.toNat) from
        if_pos hle] at h
      obtain ⟨events, hhistory, hserved⟩ := h
      rw [List.nil_append] at hhistory
      dsimp only [onceAnswer]
      rw [if_neg hnonneg, if_pos hle, hhistory]
      exact hserved
    · rw [show onceSlice all (toEnd firstSample) = (false, []) from if_neg hle] at h
      obtain ⟨events, hhistory, hraised⟩ := h
      rw [List.nil_append] at hhistory
      dsimp only [onceAnswer]
      rw [if_neg hnonneg, if_neg hle, hhistory]
      exact hraised

theorem SessionRequest.onceAnswer_of_not_valid {request : SessionRequest} (h : ¬ request.Valid)
    (all : List (List Sample)) : request.onceAnswer all = .illegalArgument := by
  cases request with
  | range firstSample maxFrames => exact answer_of_not_valid h all
  | toEnd firstSample =>
    refine if_pos ?_
    by_contra hnonneg
    exact h ⟨Int.not_lt.mp hnonneg, by simp [SessionRequest.maxFrames?]⟩

/-- Every one-shot request over `blocks` is answered: with its rows and one `onComplete`, or with an
exception and nothing else. It gets what the same request gets on a session, unless it has no bound
and starts exactly at the end. -/
theorem decodeOnce_answered (hquiet : J.Quiet) (hfinish : ∀ d, F.finish d = true)
    (input : SessionSource) (hstarts : input.Starts J) {container : ℤ}
    (hcontainer : isValidContainer container = true) {info : StreamInfo} {s : Stream D}
    (hopens : F.Opens J input.fields input.transport container input.calls info s)
    (hreads : F.Seekable J input.fields blocks At) (hat : At blocks s)
    (hfits : ∀ b ∈ blocks, b.Fits) (htotal : info.totalSamples = (rowsOf blocks).length)
    (hpos : 0 < (rowsOf blocks).length) {fuel : ℕ} (hfuel : blocks.length < fuel)
    (request : SessionRequest) :
    (request.decodeOnce F J fuel container input).finished = true ∧
      Answered (request.onceAnswer (rowsOf blocks))
        (request.decodeOnce F J fuel container input).machine.pending
        (request.decodeOnce F J fuel container input).machine.history ∧
      (request.onceAnswer (rowsOf blocks) = request.answer (rowsOf blocks) ↔
        request ≠ .toEnd (rowsOf blocks).length) := by
  refine and_assoc.mp ⟨?_, onceAnswer_eq_answer_iff⟩
  by_cases hvalid : request.Valid
  · have hends := decodeOnce_slices hquiet hfinish input hstarts hcontainer hopens hreads hat hfits
      htotal hpos hfuel hvalid
    obtain ⟨hfinished, hended⟩ := Outcome.ends_iff.mp hends
    exact ⟨hfinished, SessionRequest.answered_onceSlice hvalid hended⟩
  · obtain ⟨message, hrefused⟩ :=
      decodeOnce_refused (F := F) (J := J) input hcontainer hvalid fuel
    rw [hrefused, SessionRequest.onceAnswer_of_not_valid hvalid]
    exact ⟨rfl, ⟨message, rfl⟩, .of_quiet (by
      simp [Machine.start, Machine.throwIllegalArgument, Machine.raise, Event.chunk?,
        Event.isComplete])⟩

theorem decodeOnce_answered_twoBlocks :
    ((SessionRequest.range 1 5).decodeOnce (scriptedReader (monoInfo 2) twoBlocks) quietJvm 3 0
        (.channel 0)).finished = true ∧
      Answered (SessionRequest.onceAnswer (rowsOf twoBlocks) (.range 1 5))
        ((SessionRequest.range 1 5).decodeOnce (scriptedReader (monoInfo 2) twoBlocks) quietJvm 3 0
          (.channel 0)).machine.pending
        ((SessionRequest.range 1 5).decodeOnce (scriptedReader (monoInfo 2) twoBlocks) quietJvm 3 0
          (.channel 0)).machine.history ∧
      (SessionRequest.onceAnswer (rowsOf twoBlocks) (.range 1 5) =
          SessionRequest.answer (rowsOf twoBlocks) (.range 1 5) ↔
        SessionRequest.range 1 5 ≠ .toEnd (rowsOf twoBlocks).length) :=
  decodeOnce_answered quietJvm_quiet (fun _ => rfl) (.channel 0) ⟨by decide, [], rfl⟩ rfl
    (scriptedReader_opens _ _ _ _ _ _ _) (scriptedReader_seekable _ _ _ _) rfl twoBlocks_fits
    (by rfl) (by decide) (by decide) _

end

end JFlac.Decode
