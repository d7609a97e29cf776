import JFlac.Decode.Ranges

/-!
# Runs of requests on one session

A reusable session is left by every request in a state from which the next one starts afresh: it
does not matter where the decoder stands, for each request seeks. So every request of a run delivers
exactly its window of the audio and completes; a range that starts behind the end is refused.
-/

namespace JFlac.Decode

open Machine Lib

variable {D : Type}

/-! ## Ends of a session method -/

/-- A `FlacDecodeException` is pending. -/
def Machine.Raised (m : Machine) : Prop := ∃ message, m.pending = some (.flacDecodeException message)

/-- How an operation ended: whether it completed or raised, and the rows the consumer had then. -/
abbrev Ending := Bool × List (List Sample)

/-- An operation that began with the history `base` has come to this end. -/
def EndsWith (base : List Event) (m : Machine) (ending : Ending) : Prop :=
  ∃ events, m.history = base ++ events ∧
    if ending.1 then m.pending = none ∧ Served events ending.2
    else m.Raised ∧ Heard events ending.2

/-- One more event, and an exception is pending. -/
theorem EndsWith.raised {base events : List Event} {rows : List (List Sample)} {m m' : Machine}
    (hhistory : m.history = base ++ events) (hheard : Heard events rows) {event : Event}
    (hevent : m'.history = m.history ++ [event])
    (hquiet : event.chunk? = none ∧ event.isComplete = false) (hraised : m'.Raised) :
    EndsWith base m' (false, rows) := by
  have hall : Heard (events ++ [event]) (rows ++ []) :=
    hheard.append (.of_quiet (by simpa using hquiet))
  rw [List.append_nil] at hall
  exact ⟨events ++ [event], by rw [hevent, hhistory, List.append_assoc], hraised, hall⟩

section
variable {F : LibFlac D} {J : Jvm} {source : Source} {blocks : List Frame}
  {At : List Frame → Stream D → Prop}

/-- The end of a session method after a success. -/
theorem Playing.completeSession (hquiet : J.Quiet) {base : List Event}
    {rows : List (List Sample)} {m : Machine} (h : Playing base rows m) :
    (completeSession J true m).context = m.context.dropConsumer ∧
      EndsWith base (completeSession J true m) (true, m.context.window rows) := by
  obtain ⟨events, hhistory, hstreams, hincomplete⟩ := h.heard
  have hcomplete : Decode.completeSession J true m =
      (m.record (.java .onComplete .returned)).withContext m.context.dropConsumer := by
    unfold Decode.completeSession
    dsimp only
    rw [if_pos (by simp [exceptionCheck, h.unpending]), hquiet.callJava _ h.unpending]
    rfl
  rw [hcomplete]
  refine ⟨rfl, events ++ [.java .onComplete .returned], ?_, h.unpending, events, rfl, hstreams,
    hincomplete⟩
  show m.history ++ [_] = _
  rw [hhistory, List.append_assoc]

/-- What a seek leads to: blocks to come, the first of them handed over by the seek, or a failure. -/
def LibFlac.SeeksTo (F : LibFlac D) (J : Jvm) (source : Source)
    (At : List Frame → Stream D → Prop) (s : Stream D) (sample : ℕ) : Option (List Frame) → Prop
  | some blocks => ∃ block after s', blocks = block :: after ∧
      Delivers J source (F.seekAbsolute s.decoder sample) s.transportCalls [.pcm block] true s' ∧
      At after s'
  | none => ∃ rest s',
      Delivers J source (F.seekAbsolute s.decoder sample) s.transportCalls [] false s' ∧ At rest s'

/-- How an operation ends that seeks: the frame-count check decides unless the seek fails. -/
def DecodeContext.seekEnding (c : DecodeContext) (found : Option (List (List Sample))) : Ending :=
  found.elim (false, []) fun rows => (c.passes rows, c.window rows)

/-- The shared part of the session methods, from an operation that has just been set up. -/
theorem Playing.seekAndProcessSession (hquiet : J.Quiet) (hreads : F.Reads J source At)
    {base : List Event} {found : Option (List Frame)} {fuel : ℕ}
    (hfuel : ∀ blocks ∈ found, blocks.length < fuel)
    (hfits : ∀ blocks ∈ found, ∀ b ∈ blocks, b.Fits) {m : Machine} (h : Playing base [] m)
    (hplain : m.context.decodeChainedOgg = false) (hsource : m.context.source = source)
    {s : Stream D} {firstSample : ℤ} (hseeks : F.SeeksTo J source At s firstSample.toNat found)
    (recheckError : Bool) :
    ∃ rest s' m' c,
      seekAndProcessSession F J fuel firstSample recheckError s m = ⟨true, ⟨s', m'⟩⟩ ∧
      At rest s' ∧ Advances m.context c ∧ m'.context = c.dropConsumer ∧
      EndsWith base m' (m.context.seekEnding (found.map rowsOf)) := by
  cases found with
  | none =>
    obtain ⟨rest, s', hdelivers, hat⟩ := hseeks
    obtain ⟨m₁, hcall, hplaying, hadvances⟩ :=
      h.call hquiet hsource [] (by simp) hdelivers .seekAbsolute
    obtain ⟨events, hhistory, hheard⟩ := hplaying.heard
    rw [rowsOf_nil, List.append_nil, DecodeContext.window_nil] at hheard
    refine ⟨rest, s', throwSessionFailure F "FLAC decoder session failed while seeking" s' m₁,
      m₁.context, ?_, hat, hadvances, rfl, .raised hhistory hheard rfl ⟨rfl, rfl⟩ ⟨_, rfl⟩⟩
    unfold Decode.seekAndProcessSession
    rw [hcall]
    dsimp only
    rw [if_pos (by simp [exceptionCheck, hplaying.unpending])]
  | some blocks =>
    obtain ⟨block, after, s₁, rfl, hdelivers, hat⟩ := hseeks
    have hlength : (block :: after).length < fuel := hfuel _ rfl
    obtain ⟨m₁, rows, s₂, m₂, hcall, -, herror₁, hends, hloop, rest, hat₂⟩ :=
      h.seekBlock hquiet hreads hplain hsource hdelivers hat (Nat.lt_of_succ_lt hlength)
        (hfits _ rfl)
    unfold Decode.seekAndProcessSession
    rw [hcall]
    dsimp only
    rw [if_neg (by simp [herror₁]), hloop]
    dsimp only [DecodeContext.seekEnding, Option.map, Option.elim]
    rw [← hends.window, ← hends.advances.window]
    cases m.context.passes (rowsOf (block :: after)) with
    | true =>
      obtain ⟨hcontext, hserved⟩ := hends.playing.completeSession hquiet
      refine ⟨rest, s₂, Decode.completeSession J true m₂, m₂.context, ?_, hat₂, hends.advances,
        hcontext, hserved⟩
      rw [if_neg (by simp [hends.playing.error]), if_pos rfl]
    | false =>
      -- the count check left its exception, so nothing else is reported
      obtain ⟨events, hhistory, hheard⟩ := hends.playing.heard
      refine ⟨rest, s₂, (m₂.throwDecode (physicalEofMessage m₂.context)).withContext
        m₂.context.dropConsumer, m₂.context, ?_, hat₂, hends.advances, rfl,
        .raised hhistory hheard rfl ⟨rfl, rfl⟩ ⟨_, rfl⟩⟩
      have hraised : (m₂.throwDecode (physicalEofMessage m₂.context)).exceptionCheck = true := rfl
      rw [if_neg Bool.false_ne_true, if_neg (by rw [hraised]; simp)]
      unfold Decode.completeSession
      dsimp only
      rw [if_neg (by simp)]
      rfl

/-! ## Requests -/

/-- The context of a session between two requests, over audio of `total` frames. -/
structure DecodeContext.Serves (source : Source) (total : ℕ) (c : DecodeContext) : Prop where
  source : c.source = source
  push : c.pullMode = false
  plain : c.decodeChainedOgg = false
  info : c.sawStreamInfo = true
  total : c.streamTotalSamples = total

/-- A session between two requests. Its decoder may stand anywhere. -/
structure SessionReady (At : List Frame → Stream D → Prop) (source : Source) (total : ℕ)
    (session : Session D) : Prop where
  position : ∃ rest, At rest session.stream
  serves : session.machine.context.Serves source total

/-- A request on a session: from an offset to the end, or a bounded range. -/
inductive SessionRequest where
  | toEnd (firstSample : ℤ)
  | range (firstSample maxFrames : ℤ)
  deriving DecidableEq, Repr

/-- The session method of a request. -/
def SessionRequest.decode (F : LibFlac D) (J : Jvm) (fuel : ℕ) :
    SessionRequest → Session D → SessionOutcome D
  | .toEnd firstSample, session => decodeDecoderFrom F J fuel firstSample true session
  | .range firstSample maxFrames, session =>
    decodeDecoderRange F J fuel firstSample maxFrames true session

/-- What a request is answered with. -/
inductive Answer where
  | rows (rows : List (List Sample))
  | illegalArgument
  | behindEnd

/-- The answer a request asks for. Only a bounded request may start exactly at the end. -/
def SessionRequest.answer (all : List (List Sample)) : SessionRequest → Answer
  | .toEnd firstSample =>
    if firstSample < 0 then .illegalArgument
    else if firstSample.toNat < all.length then .rows (all.drop firstSample.toNat)
    else .behindEnd
  | .range firstSample maxFrames =>
    if firstSample < 0 ∨ maxFrames < 0 ∨ longMax < firstSample + maxFrames then .illegalArgument
    else if firstSample.toNat ≤ all.length then
      .rows ((all.drop firstSample.toNat).take maxFrames.toNat)
    else .behindEnd

/-- What the consumer heard and what is pending when a request was answered. -/
def Answered : Answer → Option Throwable → List Event → Prop
  | .rows rows, pending, events => pending = none ∧ Served events rows
  | .illegalArgument, pending, events =>
    (∃ message, pending = some (.illegalArgumentException message)) ∧ Heard events []
  | .behindEnd, pending, events =>
    (∃ message, pending = some (.flacDecodeException message)) ∧ Heard events []

theorem validateDecodeRequest_eq_none {firstSample maxFrames : ℤ} :
    validateDecodeRequest firstSample true maxFrames = none ↔
      ¬(firstSample < 0 ∨ maxFrames < 0 ∨ longMax < firstSample + maxFrames) := by
  unfold validateDecodeRequest
  constructor
  · intro h
    split at h
    · cases h
    split at h
    · cases h
    split at h
    · cases h
    rename_i hfirst hmax hsum
    simp only [true_and, not_lt] at hmax hsum
    omega
  · intro h
    rw [if_neg (by omega), if_neg (by omega), if_neg (by omega)]

/-! ## How a request ends -/

namespace SessionRequest

/-- The first sample of a request. -/
def firstSample : SessionRequest → ℤ
  | toEnd firstSample => firstSample
  | range firstSample _ => firstSample

/-- The bound of a request, if it has one. -/
def maxFrames? : SessionRequest → Option ℤ
  | toEnd _ => none
  | range _ maxFrames => some maxFrames

/-- The arguments are not refused. -/
def Valid (request : SessionRequest) : Prop :=
  0 ≤ request.firstSample ∧
    ∀ n ∈ request.maxFrames?, 0 ≤ n ∧ request.firstSample + n ≤ longMax

/-- How a request ends over a stream that declares `total` frames (0: it does not say) and of which
`rows` are handed over from the first sample on. -/
def played (total : ℕ) (rows : List (List Sample)) : SessionRequest → Ending
  | toEnd firstSample => (decide (total = 0 ∨ total ≤ firstSample.toNat + rows.length), rows)
  | range firstSample maxFrames =>
    (decide (maxFrames.toNat ≤ rows.length ∨ total = 0 ∨
      total ≤ firstSample.toNat + rows.length), rows.take maxFrames.toNat)

/-- How a request ends that is first compared with the declared end: behind it nothing is decoded,
nor at it, nor for a bound of zero. Otherwise rows are found, or the seek fails. -/
def ending (total : ℕ) (found : Option (List (List Sample))) (request : SessionRequest) : Ending :=
  if 0 < total ∧ total < request.firstSample.toNat then (false, [])
  else if request.maxFrames? = some 0 ∨ (0 < total ∧ request.firstSample.toNat = total) then
    (true, [])
  else found.elim (false, []) fun rows => request.played total rows

/-- How a request on a session ends. Without a bound the declared end is not looked at. -/
def sessionEnding (total : ℕ) (found : Option (List (List Sample))) : SessionRequest → Ending
  | toEnd firstSample =>
    found.elim (false, []) fun rows => (toEnd firstSample).played total rows
  | range firstSample maxFrames => (range firstSample maxFrames).ending total found

theorem ending_toEnd (total : ℕ) (found : Option (List (List Sample))) (firstSample : ℤ) :
    (toEnd firstSample).ending total found =
      if 0 < total ∧ total < firstSample.toNat then (false, [])
      else if 0 < total ∧ firstSample.toNat = total then (true, [])
      else found.elim (false, []) fun rows => (toEnd firstSample).played total rows := by
  simp only [ending, SessionRequest.firstSample, maxFrames?, reduceCtorEq, false_or]

theorem ending_range (total : ℕ) (found : Option (List (List Sample)))
    (firstSample maxFrames : ℤ) :
    (range firstSample maxFrames).ending total found =
      if 0 < total ∧ total < firstSample.toNat then (false, [])
      else if maxFrames = 0 ∨ (0 < total ∧ firstSample.toNat = total) then (true, [])
      else found.elim (false, []) fun rows =>
        (range firstSample maxFrames).played total rows := by
  simp only [ending, SessionRequest.firstSample, maxFrames?, Option.some.injEq]

/-- How a request ends on a session over a stream that has exactly the frames `all` it declares. -/
def slice (all : List (List Sample)) : SessionRequest → Ending
  | toEnd firstSample =>
    if firstSample.toNat < all.length then (true, all.drop firstSample.toNat) else (false, [])
  | range firstSample maxFrames =>
    if firstSample.toNat ≤ all.length then
      (true, (all.drop firstSample.toNat).take maxFrames.toNat)
    else (false, [])

/-- The rows that a seek finds in the audio `all` of a stream that declares `total` frames. -/
def found (total : ℕ) (all : List (List Sample)) (request : SessionRequest) :
    Option (List (List Sample)) :=
  if request.firstSample.toNat < all.length ∧ (total = 0 ∨ request.firstSample.toNat < total) then
    some (all.drop request.firstSample.toNat)
  else none

theorem found_of_lt {all : List (List Sample)} (request : SessionRequest)
    (h : request.firstSample.toNat < all.length) :
    request.found all.length all = some (all.drop request.firstSample.toNat) :=
  if_pos ⟨h, .inr h⟩

theorem found_of_le {total : ℕ} {all : List (List Sample)} (request : SessionRequest)
    (h : all.length ≤ request.firstSample.toNat ∨
      (0 < total ∧ total ≤ request.firstSample.toNat)) :
    request.found total all = none :=
  if_neg (by omega)

theorem sessionEnding_found {all : List (List Sample)} (hpos : 0 < all.length)
    (request : SessionRequest) :
    request.sessionEnding all.length (request.found all.length all) = request.slice all := by
  have hall : ∀ first, first < all.length → all.length ≤ first + (all.drop first).length := by
    intro first hlt
    rw [List.length_drop]
    omega
  cases request with
  | toEnd firstSample =>
    show _ = if firstSample.toNat < all.length then _ else _
    by_cases hlt : firstSample.toNat < all.length
    · rw [if_pos hlt, found_of_lt (toEnd firstSample) hlt]
      exact congrArg (·, _) (decide_eq_true (.inr (hall _ hlt)))
    · rw [if_neg hlt, found_of_le (toEnd firstSample) (.inl (Nat.le_of_not_lt hlt))]
      rfl
  | range firstSample maxFrames =>
    show (range firstSample maxFrames).ending all.length _ =
      if firstSample.toNat ≤ all.length then _ else _
    rw [ending_range]
    by_cases hbehind : all.length < firstSample.toNat
    · rw [if_pos ⟨hpos, hbehind⟩, if_neg (Nat.not_le.mpr hbehind)]
    rw [if_neg fun h => hbehind h.2, if_pos (Nat.le_of_not_lt hbehind)]
    by_cases hend : firstSample.toNat = all.length
    · rw [if_pos (.inr ⟨hpos, hend⟩), hend, List.drop_length, List.take_nil]
    by_cases hzero : maxFrames = 0
    · rw [if_pos (.inl hzero), hzero]
      rfl
    · have hlt : firstSample.toNat < all.length := by omega
      rw [if_neg fun h => h.elim hzero fun h => hend h.2,
        found_of_lt (range firstSample maxFrames) hlt]
      exact congrArg (·, _) (decide_eq_true (.inr (.inr (hall _ hlt))))

end SessionRequest

/-! ## One request -/

namespace DecodeContext.Serves

variable {total : ℕ} {c c' : DecodeContext}

theorem prepared (h : c.Serves source total) : c.prepared.sessionPrepared.Serves source total :=
  ⟨h.source, h.push, h.plain, h.info, h.total⟩

theorem startAt (h : c.Serves source total) (firstSample : ℤ) :
    (c.startAt firstSample).Serves source total :=
  ⟨h.source, h.push, h.plain, h.info, h.total⟩

theorem configured (h : c.Serves source total) (firstSample maxFrames : ℤ) :
    (c.configureDecodeRange firstSample true maxFrames).Serves source total :=
  ⟨h.source, h.push, h.plain, h.info, h.total⟩

theorem dropConsumer (h : c.Serves source total) : c.dropConsumer.Serves source total :=
  ⟨h.source, h.push, h.plain, h.info, h.total⟩

theorem advances (h : c.Serves source total) (hadvances : Advances c c') :
    c'.Serves source total := by
  obtain ⟨emitted, complete, rfl⟩ := hadvances
  exact ⟨h.source, h.push, h.plain, h.info, h.total⟩

end DecodeContext.Serves

/-- A session method has returned, and left a session for the next request. -/
structure SessionOutcome.Ends (At : List Frame → Stream D → Prop) (source : Source) (total : ℕ)
    (session : Session D) (r : SessionOutcome D) (ending : Ending) : Prop where
  finished : r.finished = true
  ready : SessionReady At source total r.session
  ended : EndsWith session.machine.history r.session.machine ending

section
variable {total : ℕ} {session : Session D} {found : Option (List Frame)} {fuel : ℕ}

/-- The end of a session method from the operation that was set up. -/
theorem Playing.sessionEnds (hquiet : J.Quiet) (hreads : F.Reads J source At)
    (hfuel : ∀ blocks ∈ found, blocks.length < fuel)
    (hfits : ∀ blocks ∈ found, ∀ b ∈ blocks, b.Fits) {m : Machine}
    (h : Playing session.machine.history [] m) (hserves : m.context.Serves source total)
    {firstSample : ℤ}
    (hseeks : F.SeeksTo J source At session.stream firstSample.toNat found)
    (recheckError : Bool) :
    (Decode.seekAndProcessSession F J fuel firstSample recheckError session.stream m).Ends At source
      total session (m.context.seekEnding (found.map rowsOf)) := by
  obtain ⟨rest, s', m', c, hdecode, hat, hadvances, hcontext, hended⟩ :=
    h.seekAndProcessSession hquiet hreads hfuel hfits hserves.plain hserves.source hseeks
      recheckError
  rw [hdecode]
  refine ⟨rfl, ⟨⟨rest, hat⟩, ?_⟩, hended⟩
  show m'.context.Serves source total
  rw [hcontext]
  exact (hserves.advances hadvances).dropConsumer

theorem SessionReady.decodeDecoderFrom_ends (hready : SessionReady At source total session)
    (hquiet : J.Quiet) (hreads : F.Reads J source At)
    (hfuel : ∀ blocks ∈ found, blocks.length < fuel)
    (hfits : ∀ blocks ∈ found, ∀ b ∈ blocks, b.Fits) {firstSample : ℤ} (hvalid : 0 ≤ firstSample)
    (hseeks : F.SeeksTo J source At session.stream firstSample.toNat found) :
    (decodeDecoderFrom F J fuel firstSample true session).Ends At source total session
      ((SessionRequest.toEnd firstSample).sessionEnding total (found.map rowsOf)) := by
  have hpush : session.machine.enter.context.pullMode = false := hready.serves.push
  unfold decodeDecoderFrom
  dsimp only
  rw [if_neg (by simp [hpush]), if_neg (Int.not_lt.mpr hvalid), if_neg (by simp)]
  obtain ⟨m', events, hprepared, hnone, hcontext, hhistory, hheard⟩ :=
    hquiet.prepareDecodeContext (m := session.machine.enter) rfl
  rw [hprepared]
  dsimp only
  rw [if_neg (by simp)]
  generalize hm : m'.withContext (m'.context.sessionPrepared.startAt firstSample) = m
  have hmcontext :
      m.context = session.machine.context.prepared.sessionPrepared.startAt firstSample := by
    rw [← hm, withContext_context, hcontext]
    rfl
  have hserves : m.context.Serves source total := by
    rw [hmcontext]
    exact hready.serves.prepared.startAt firstSample
  have hlimited : m.context.rangeLimited = false := by
    rw [hmcontext]
    rfl
  have hfirst : m.context.firstSample = firstSample.toNat := by
    rw [hmcontext]
    rfl
  have hplaying : Playing session.machine.history [] m := by
    refine .begin (by rw [← hm]; exact hnone) (by rw [← hm]; exact hhistory) hheard ?_ hserves.push
      ?_ ?_ ?_
    · rw [hmcontext]
      rfl
    · rw [hmcontext]
      exact Nat.zero_lt_succ _
    · rw [hmcontext]
      rfl
    · rw [hmcontext]
      rfl
  have hending : ∀ found, m.context.seekEnding found =
      (SessionRequest.toEnd firstSample).sessionEnding total found := by
    rintro (_ | rows)
    · rfl
    · have hwindow : m.context.window rows = rows := if_neg (by simp [hlimited])
      show (m.context.passes rows, m.context.window rows) = _
      rw [DecodeContext.passes_unbounded hlimited hserves.info, hserves.total, hfirst, hwindow]
      rfl
  rw [← hending]
  exact hplaying.sessionEnds hquiet hreads hfuel hfits hserves hseeks true

theorem SessionReady.decodeDecoderRange_ends (hready : SessionReady At source total session)
    (hquiet : J.Quiet) (hreads : F.Reads J source At)
    (hfuel : ∀ blocks ∈ found, blocks.length < fuel)
    (hfits : ∀ blocks ∈ found, ∀ b ∈ blocks, b.Fits) {firstSample maxFrames : ℤ}
    (hvalid : (SessionRequest.range firstSample maxFrames).Valid)
    (hseeks : maxFrames ≠ 0 → total = 0 ∨ firstSample.toNat < total →
      F.SeeksTo J source At session.stream firstSample.toNat found) :
    (decodeDecoderRange F J fuel firstSample maxFrames true session).Ends At source total session
      ((SessionRequest.range firstSample maxFrames).sessionEnding total (found.map rowsOf)) := by
  obtain ⟨hnonneg, hbound⟩ := hvalid
  obtain ⟨hmax, hsum⟩ : 0 ≤ maxFrames ∧ firstSample + maxFrames ≤ longMax := hbound maxFrames rfl
  have hnonneg : 0 ≤ firstSample := hnonneg
  have hpush : session.machine.enter.context.pullMode = false := hready.serves.push
  unfold decodeDecoderRange
  dsimp only
  rw [if_neg (by simp [hpush]), validateDecodeRequest_eq_none.mpr (by omega)]
  dsimp only
  rw [if_neg (by simp)]
  obtain ⟨m', events, hprepared, hnone, hcontext, hhistory, hheard⟩ :=
    hquiet.prepareDecodeContext (m := session.machine.enter) rfl
  rw [hprepared]
  dsimp only
  rw [if_neg (by simp)]
  generalize hm : m'.withContext
    (m'.context.sessionPrepared.configureDecodeRange firstSample true maxFrames) = m
  have hmcontext : m.context = session.machine.context.prepared.sessionPrepared.configureDecodeRange
      firstSample true maxFrames := by
    rw [← hm, withContext_context, hcontext]
    rfl
  have hserves : m.context.Serves source total := by
    rw [hmcontext]
    exact hready.serves.prepared.configured firstSample maxFrames
  have hfirst : m.context.firstSample = firstSample.toNat := by rw [hmcontext]; rfl
  have hlimited : m.context.rangeLimited = true := by rw [hmcontext]; rfl
  have hframes : m.context.maxFrames = maxFrames.toNat := by rw [hmcontext]; rfl
  have hcomplete : m.context.rangeComplete = decide (maxFrames = 0) := by rw [hmcontext]; rfl
  have hplaying : Playing session.machine.history [] m := by
    refine .begin (by rw [← hm]; exact hnone) (by rw [← hm]; exact hhistory) hheard ?_ hserves.push
      ?_ ?_ ?_
    · rw [hmcontext]
      rfl
    · rw [hframes]
      unfold longMax at hsum
      omega
    · rw [hmcontext]
      rfl
    · rw [hcomplete, hlimited, hframes, Bool.true_and]
      exact decide_eq_decide.mpr (by omega)
  have hafter : m.context.rangeStartsAfterStream firstSample =
      decide (0 < total ∧ total < firstSample.toNat) := by
    unfold DecodeContext.rangeStartsAfterStream
    rw [hserves.info, hserves.total, Bool.true_and, Bool.decide_and]
  have hatEnd : m.context.rangeStartsAtStreamEnd firstSample =
      decide (0 < total ∧ firstSample.toNat = total) := by
    unfold DecodeContext.rangeStartsAtStreamEnd
    rw [hserves.info, hserves.total, Bool.true_and, Bool.decide_and]
  show SessionOutcome.Ends At source total session _
    ((SessionRequest.range firstSample maxFrames).ending total (found.map rowsOf))
  rw [SessionRequest.ending_range]
  by_cases hbehind : 0 < total ∧ total < firstSample.toNat
  · rw [if_pos (by rw [hafter, decide_eq_true hbehind]), if_pos hbehind]
    refine ⟨rfl, ⟨hready.position, hserves.dropConsumer⟩, ?_⟩
    have hbegun : m.history = session.machine.history ++ events := by
      rw [← hm]
      exact hhistory
    exact .raised hbegun hheard rfl ⟨rfl, rfl⟩ ⟨_, rfl⟩
  rw [if_neg (by rw [hafter, decide_eq_false hbehind]; simp), if_neg hbehind]
  by_cases hempty : maxFrames = 0 ∨ (0 < total ∧ firstSample.toNat = total)
  · rw [if_pos (by rw [hcomplete, hatEnd]; simpa using hempty), if_pos hempty]
    obtain ⟨hcontext', hserved⟩ := hplaying.completeSession hquiet
    rw [DecodeContext.window_nil] at hserved
    refine ⟨rfl, ⟨hready.position, ?_⟩, hserved⟩
    show (completeSession J true m).context.Serves source total
    rw [hcontext']
    exact hserves.dropConsumer
  · rw [if_neg (by rw [hcomplete, hatEnd]; simpa using hempty), if_neg hempty]
    have hending : ∀ found, m.context.seekEnding found = found.elim (false, []) fun rows =>
        (SessionRequest.range firstSample maxFrames).played total rows := by
      rintro (_ | rows)
      · rfl
      · have hwindow : m.context.window rows = rows.take maxFrames.toNat := by
          unfold DecodeContext.window
          rw [if_pos hlimited, hframes]
        show (m.context.passes rows, m.context.window rows) = _
        rw [DecodeContext.passes_bounded hlimited hserves.info, hserves.total, hfirst, hframes,
          hwindow]
        rfl
    rw [← hending]
    rw [not_or] at hempty
    exact hplaying.sessionEnds hquiet hreads hfuel hfits hserves
      (hseeks hempty.1 (by omega)) false

/-- Every valid request on a session comes to its end. -/
theorem SessionRequest.decode_ends (hquiet : J.Quiet) (hreads : F.Reads J source At)
    (hready : SessionReady At source total session)
    (hfuel : ∀ blocks ∈ found, blocks.length < fuel)
    (hfits : ∀ blocks ∈ found, ∀ b ∈ blocks, b.Fits) {request : SessionRequest}
    (hvalid : request.Valid)
    (hseeks : F.SeeksTo J source At session.stream request.firstSample.toNat found) :
    (request.decode F J fuel session).Ends At source total session
      (request.sessionEnding total (found.map rowsOf)) := by
  cases request with
  | toEnd firstSample =>
    exact hready.decodeDecoderFrom_ends hquiet hreads hfuel hfits hvalid.1 hseeks
  | range firstSample maxFrames =>
    exact hready.decodeDecoderRange_ends hquiet hreads hfuel hfits hvalid fun _ _ => hseeks

/-- A request with invalid arguments is refused. -/
theorem SessionRequest.decode_refused (F : LibFlac D) (J : Jvm) (fuel : ℕ)
    (hready : SessionReady At source total session) {request : SessionRequest}
    (hinvalid : ¬ request.Valid) :
    ∃ message, request.decode F J fuel session =
      ⟨true, ⟨session.stream, session.machine.enter.throwIllegalArgument message⟩⟩ := by
  have hpush : ¬ session.machine.enter.context.pullMode = true := by
    rw [show session.machine.enter.context.pullMode = false from hready.serves.push]
    simp
  cases request with
  | toEnd firstSample =>
    have hneg : firstSample < 0 := by
      by_contra hnonneg
      exact hinvalid ⟨Int.not_lt.mp hnonneg, by simp [SessionRequest.maxFrames?]⟩
    refine ⟨"First sample must be non-negative.", ?_⟩
    show decodeDecoderFrom F J fuel firstSample true session = _
    unfold decodeDecoderFrom
    dsimp only
    rw [if_neg hpush, if_pos hneg]
  | range firstSample maxFrames =>
    show ∃ message, decodeDecoderRange F J fuel firstSample maxFrames true session = _
    unfold decodeDecoderRange
    dsimp only
    rw [if_neg hpush]
    cases hvalidate : validateDecodeRequest firstSample true maxFrames with
    | some message => exact ⟨message, rfl⟩
    | none =>
      have hvalid := validateDecodeRequest_eq_none.mp hvalidate
      refine absurd ⟨?_, ?_⟩ hinvalid
      · dsimp only [SessionRequest.firstSample]
        omega
      · dsimp only [SessionRequest.firstSample, SessionRequest.maxFrames?]
        rintro n ⟨⟩
        omega

end

/-! ## Answers -/

/-- A request of a session, and the session it leaves. -/
structure Answers (At : List Frame → Stream D → Prop) (source : Source) (all : List (List Sample))
    (request : SessionRequest) (session : Session D) (r : SessionOutcome D) : Prop where
  finished : r.finished = true
  ready : SessionReady At source all.length r.session
  answered : ∃ events, r.session.machine.history = session.machine.history ++ events ∧
    Answered (request.answer all) r.session.machine.pending events

/-- Where a seek leads. -/
theorem LibFlac.Locates.seeks {total : ℕ} (hreads : F.Locates J source blocks total At)
    (hfits : ∀ b ∈ blocks, b.Fits) {rest : List Frame} {s : Stream D} (hat : At rest s)
    (request : SessionRequest) :
    ∃ found, F.SeeksTo J source At s request.firstSample.toNat found ∧
      found.map rowsOf = request.found total (rowsOf blocks) ∧
      ∀ played ∈ found, played.length ≤ blocks.length ∧ ∀ b ∈ played, b.Fits := by
  unfold SessionRequest.found
  by_cases hfound : request.firstSample.toNat < (rowsOf blocks).length ∧
      (total = 0 ∨ request.firstSample.toNat < total)
  · obtain ⟨⟨block, after⟩, hseek⟩ := seekBlocks_of_lt hfound.1
    obtain ⟨s', hdelivers, hat'⟩ := hreads.seek rest s _ block after hat hfound.2 hseek
    refine ⟨some (block :: after), ⟨block, after, s', rfl, hdelivers, hat'⟩, ?_, ?_⟩
    · rw [if_pos hfound, Option.map_some, rowsOf_seekBlocks hseek]
    · rintro played ⟨⟩
      exact ⟨seekBlocks_length hseek, seekBlocks_fits hfits hseek⟩
  · obtain ⟨s', hdelivers, hat'⟩ :=
      hreads.miss rest s request.firstSample.toNat hat (by omega)
    exact ⟨none, ⟨rest, s', hdelivers, hat'⟩, by rw [if_neg hfound]; rfl, by simp⟩

/-- A valid request is answered with its slice. -/
theorem SessionRequest.answered_slice {request : SessionRequest} (hvalid : request.Valid)
    {all : List (List Sample)} {base : List Event} {m : Machine}
    (h : EndsWith base m (request.slice all)) :
    ∃ events, m.history = base ++ events ∧
      Answered (request.answer all) m.pending events := by
  obtain ⟨hnonneg, hbound⟩ := hvalid
  cases request with
  | toEnd firstSample =>
    have hvalid : ¬ firstSample < 0 := Int.not_lt.mpr hnonneg
    by_cases hlt : firstSample.toNat < all.length
    · rw [show slice all (toEnd firstSample) = (true, all.drop firstSample.toNat) from if_pos hlt]
        at h
      obtain ⟨events, hhistory, hserved⟩ := h
      refine ⟨events, hhistory, ?_⟩
      dsimp only [answer]
      rw [if_neg hvalid, if_pos hlt]
      exact hserved
    · rw [show slice all (toEnd firstSample) = (false, []) from if_neg hlt] at h
      obtain ⟨events, hhistory, hraised⟩ := h
      refine ⟨events, hhistory, ?_⟩
      dsimp only [answer]
      rw [if_neg hvalid, if_neg hlt]
      exact hraised
  | range firstSample maxFrames =>
    have hmax := hbound maxFrames rfl
    dsimp only [SessionRequest.firstSample] at hnonneg hmax
    by_cases hle : firstSample.toNat ≤ all.length
    · rw [show slice all (range firstSample maxFrames) =
        (true, (all.drop firstSample.toNat).take maxFrames.toNat) from if_pos hle] at h
      obtain ⟨events, hhistory, hserved⟩ := h
      refine ⟨events, hhistory, ?_⟩
      dsimp only [answer]
      rw [if_neg (by omega), if_pos hle]
      exact hserved
    · rw [show slice all (range firstSample maxFrames) = (false, []) from if_neg hle] at h
      obtain ⟨events, hhistory, hraised⟩ := h
      refine ⟨events, hhistory, ?_⟩
      dsimp only [answer]
      rw [if_neg (by omega), if_neg hle]
      exact hraised

/-- An invalid request asks for an `IllegalArgumentException`. -/
theorem SessionRequest.answer_of_not_valid {request : SessionRequest} (h : ¬ request.Valid)
    (all : List (List Sample)) : request.answer all = .illegalArgument := by
  cases request with
  | toEnd firstSample =>
    refine if_pos ?_
    by_contra hnonneg
    exact h ⟨Int.not_lt.mp hnonneg, by simp [SessionRequest.maxFrames?]⟩
  | range firstSample maxFrames =>
    refine if_pos ?_
    by_contra hvalid
    refine h ⟨?_, ?_⟩
    · dsimp only [SessionRequest.firstSample]
      omega
    · dsimp only [SessionRequest.firstSample, SessionRequest.maxFrames?]
      rintro n ⟨⟩
      omega

/-- Over a stream with the frames it declares, a request on a session ends with its slice. -/
theorem SessionRequest.decode_slices (hquiet : J.Quiet) (hreads : F.Seekable J source blocks At)
    {fuel : ℕ} (hfuel : blocks.length < fuel) (hfits : ∀ b ∈ blocks, b.Fits)
    (hpos : 0 < (rowsOf blocks).length) {session : Session D}
    (hready : SessionReady At source (rowsOf blocks).length session) {request : SessionRequest}
    (hvalid : request.Valid) :
    (request.decode F J fuel session).Ends At source (rowsOf blocks).length session
      (request.slice (rowsOf blocks)) := by
  obtain ⟨rest, hat⟩ := hready.position
  obtain ⟨found, hseeks, hfound, hplayed⟩ := hreads.locates.seeks hfits hat request
  have hends := request.decode_ends hquiet hreads.toReads hready
    (fun played hp => Nat.lt_of_le_of_lt (hplayed played hp).1 hfuel)
    (fun played hp => (hplayed played hp).2) hvalid hseeks
  rwa [hfound, SessionRequest.sessionEnding_found hpos] at hends

theorem SessionRequest.decode_answers (hquiet : J.Quiet) (hreads : F.Seekable J source blocks At)
    {fuel : ℕ} (hfuel : blocks.length < fuel) (hfits : ∀ b ∈ blocks, b.Fits)
    (hpos : 0 < (rowsOf blocks).length) {session : Session D}
    (hready : SessionReady At source (rowsOf blocks).length session) (request : SessionRequest) :
    Answers At source (rowsOf blocks) request session (request.decode F J fuel session) := by
  by_cases hvalid : request.Valid
  · have hends := decode_slices hquiet hreads hfuel hfits hpos hready hvalid
    exact ⟨hends.finished, hends.ready, SessionRequest.answered_slice hvalid hends.ended⟩
  · obtain ⟨message, hrefused⟩ := request.decode_refused F J fuel hready hvalid
    rw [hrefused]
    refine ⟨rfl, ⟨hready.position, hready.serves⟩,
      [.raised (.illegalArgumentException message)], rfl, ?_⟩
    rw [SessionRequest.answer_of_not_valid hvalid]
    exact ⟨⟨message, rfl⟩, .of_quiet (by simp [Event.chunk?, Event.isComplete])⟩

/-! ## A run of requests -/

/-- What one request of a run left behind: whether it returned, the exception it left, and what it
added to the record. -/
structure Exchange where
  finished : Bool
  pending : Option Throwable
  events : List Event

/-- The requests of a run, each on the session the one before it left. -/
def exchanges (F : LibFlac D) (J : Jvm) (fuel : ℕ) :
    List SessionRequest → Session D → List Exchange
  | [], _ => []
  | request :: requests, session =>
    let outcome := request.decode F J fuel session
    ⟨outcome.finished, outcome.session.machine.pending,
      outcome.session.machine.history.drop session.machine.history.length⟩ ::
        exchanges F J fuel requests outcome.session

/-- Every request of a run is answered. -/
theorem SessionReady.exchanges (hquiet : J.Quiet) (hreads : F.Seekable J source blocks At)
    {fuel : ℕ} (hfuel : blocks.length < fuel) (hfits : ∀ b ∈ blocks, b.Fits)
    (hpos : 0 < (rowsOf blocks).length) {session : Session D}
    (hready : SessionReady At source (rowsOf blocks).length session)
    (requests : List SessionRequest) :
    List.Forall₂ (fun request exchange => exchange.finished = true ∧
        Answered (request.answer (rowsOf blocks)) exchange.pending exchange.events)
      requests (exchanges F J fuel requests session) := by
  induction requests generalizing session with
  | nil => exact .nil
  | cons request requests ih =>
    have hanswers := request.decode_answers hquiet hreads hfuel hfits hpos hready
    obtain ⟨events, hhistory, hanswered⟩ := hanswers.answered
    refine .cons ⟨hanswers.finished, ?_⟩ (ih hanswers.ready)
    dsimp only
    rw [hhistory, List.drop_left]
    exact hanswered

/-- The session that the requests of a run leave. -/
def sessionAfter (F : LibFlac D) (J : Jvm) (fuel : ℕ) (requests : List SessionRequest)
    (session : Session D) : Session D :=
  requests.foldl (fun session request => (request.decode F J fuel session).session) session

theorem SessionReady.after (hquiet : J.Quiet) (hreads : F.Seekable J source blocks At)
    {fuel : ℕ} (hfuel : blocks.length < fuel) (hfits : ∀ b ∈ blocks, b.Fits)
    (hpos : 0 < (rowsOf blocks).length) {session : Session D}
    (hready : SessionReady At source (rowsOf blocks).length session)
    (requests : List SessionRequest) :
    SessionReady At source (rowsOf blocks).length (sessionAfter F J fuel requests session) := by
  induction requests generalizing session with
  | nil => exact hready
  | cons request requests ih =>
    exact ih (request.decode_answers hquiet hreads hfuel hfits hpos hready).ready

/-! ## Opening a session -/

/-- The context of a session when its metadata was read. -/
theorem openContext_serves (source : Source) (info : StreamInfo) :
    (((openContext false).withSource source).captured info).Serves source info.totalSamples :=
  ⟨rfl, rfl, rfl, rfl, rfl⟩

/-- A file that libFLAC opens becomes a session. -/
theorem openDecoderFile_ready (hquiet : J.Quiet) {container : ℤ}
    (hcontainer : isValidContainer container = true) {info : StreamInfo} {s : Stream D}
    (hopens : F.Opens J DecodeContext.zero.source .file container [] info s)
    (hposition : ∃ rest, At rest s) :
    ∃ session m, openDecoderFile F J true container = (some session, m) ∧
      SessionReady At DecodeContext.zero.source info.totalSamples session := by
  obtain ⟨decoder, decoder', count, hnew, hinit, hdelivers⟩ := hopens.opens
  obtain ⟨m, events, hcall, hnone, hcontext, -, -⟩ :=
    hquiet.callMetadata hdelivers (F := F)
      (m := (Machine.start.record (.java .encodePath .returned)).withContext (openContext false))
      rfl rfl rfl .processUntilEndOfMetadata
  have herror : m.context.sawError = false := by
    rw [hcontext]
    rfl
  refine ⟨⟨s, m⟩, m, ?_, hposition, ?_⟩
  · unfold openDecoderFile
    dsimp only
    rw [if_neg (by simp [hcontainer]), if_neg (by simp), hquiet.jstringToUtf8 rfl]
    dsimp only
    rw [if_neg (by simp), hquiet.malloc, if_neg (by simp), hnew]
    dsimp only
    rw [hinit]
    dsimp only
    rw [hcall]
    dsimp only
    rw [if_neg (by simp [herror])]
    unfold registerDecodeSession
    rw [hquiet.malloc, if_neg (by simp)]
  · show m.context.Serves _ _
    rw [hcontext]
    exact openContext_serves _ info

/-- A channel that libFLAC opens becomes a session. -/
theorem openDecoderChannel_ready (hquiet : J.Quiet) {container : ℤ}
    (hcontainer : isValidContainer container = true) {position : ℤ} {bytes : List UInt8}
    (hstart : J.transport [] .position = .ok ⟨position, bytes⟩) (hnonneg : 0 ≤ position)
    {info : StreamInfo} {s : Stream D}
    (hopens : F.Opens J (channelSource position) .seekableChannel container [.position] info s)
    (hposition : ∃ rest, At rest s) :
    ∃ session m, openDecoderChannel F J true container = (some session, m) ∧
      SessionReady At (channelSource position) info.totalSamples session := by
  obtain ⟨decoder, decoder', count, hnew, hinit, hdelivers⟩ := hopens.opens
  obtain ⟨m₀, events₀, hchannel, hnone₀, hcontext₀, -, -⟩ :=
    hquiet.prepareDecodeSeekableChannel hstart hnonneg
      (m := Machine.start.withContext (openContext false)) rfl
  have hsource₀ : m₀.context = (openContext false).withSource (channelSource position) := by
    rw [hcontext₀]
    rfl
  obtain ⟨m, events, hcall, hnone, hcontext, -, -⟩ :=
    hquiet.callMetadata hdelivers (F := F) hnone₀ (by rw [hsource₀]; rfl) (by rw [hsource₀]; rfl)
      .processUntilEndOfMetadata
  have herror : m.context.sawError = false := by
    rw [hcontext, hsource₀]
    rfl
  refine ⟨⟨s, m⟩, m, ?_, hposition, ?_⟩
  · unfold openDecoderChannel
    dsimp only
    rw [if_neg (by simp [hcontainer]), if_neg (by simp), hquiet.malloc, if_neg (by simp), hnew]
    dsimp only
    rw [hchannel]
    dsimp only
    rw [hinit]
    dsimp only
    unfold readSessionMetadata
    rw [hcall]
    dsimp only
    rw [if_neg (by simp [exceptionCheck, hnone]), if_neg (by simp [herror])]
    dsimp only
    unfold registerDecodeSession
    rw [hquiet.malloc, if_neg (by simp)]
  · show m.context.Serves _ _
    rw [hcontext, hsource₀]
    exact openContext_serves _ info

/-- Where a session reads from: a file, or a channel at the given position. -/
inductive SessionSource where
  | file
  | channel (position : ℤ)

namespace SessionSource

/-- The opening method of a source. -/
def openDecoder (F : LibFlac D) (J : Jvm) (container : ℤ) :
    SessionSource → Option (Session D) × Machine
  | file => openDecoderFile F J true container
  | channel _ => openDecoderChannel F J true container

/-- The source fields of the context. -/
def fields : SessionSource → Source
  | file => DecodeContext.zero.source
  | channel position => channelSource position

/-- The transport of libFLAC. -/
def transport : SessionSource → Transport
  | file => .file
  | channel _ => .seekableChannel

/-- The transport calls made before libFLAC is initialised. -/
def calls : SessionSource → List TransportCall
  | file => []
  | channel _ => [.position]

/-- A channel answers with the position it is at. -/
def Starts (J : Jvm) : SessionSource → Prop
  | file => True
  | channel position => 0 ≤ position ∧ ∃ bytes, J.transport [] .position = .ok ⟨position, bytes⟩

end SessionSource

/-- A source that libFLAC opens becomes a session. -/
theorem SessionSource.openDecoder_ready (hquiet : J.Quiet) (input : SessionSource)
    (hstarts : input.Starts J) {container : ℤ} (hcontainer : isValidContainer container = true)
    {info : StreamInfo} {s : Stream D}
    (hopens : F.Opens J input.fields input.transport container input.calls info s)
    (hposition : ∃ rest, At rest s) :
    ∃ session m, input.openDecoder F J container = (some session, m) ∧
      SessionReady At input.fields info.totalSamples session := by
  cases input with
  | file => exact openDecoderFile_ready hquiet hcontainer hopens hposition
  | channel position =>
    obtain ⟨hnonneg, bytes, hstart⟩ := hstarts
    exact openDecoderChannel_ready hquiet hcontainer hstart hnonneg hopens hposition

/-- A session over `blocks`, opened on a file or a channel, answers any run of requests: each one
gets its rows and one `onComplete`, or an exception and nothing else, whatever was requested before
it. -/
theorem openDecoder_answers (hquiet : J.Quiet) (input : SessionSource) (hstarts : input.Starts J)
    {container : ℤ} (hcontainer : isValidContainer container = true) {info : StreamInfo}
    {s : Stream D} (hopens : F.Opens J input.fields input.transport container input.calls info s)
    (hreads : F.Seekable J input.fields blocks At) (hat : At blocks s)
    (hfits : ∀ b ∈ blocks, b.Fits) (htotal : info.totalSamples = (rowsOf blocks).length)
    (hpos : 0 < (rowsOf blocks).length) {fuel : ℕ} (hfuel : blocks.length < fuel) :
    ∃ session m, input.openDecoder F J container = (some session, m) ∧
      ∀ requests, List.Forall₂ (fun request exchange => exchange.finished = true ∧
          Answered (request.answer (rowsOf blocks)) exchange.pending exchange.events)
        requests (exchanges F J fuel requests session) := by
  obtain ⟨session, m, hopen, hready⟩ :=
    input.openDecoder_ready hquiet hstarts hcontainer hopens ⟨_, hat⟩
  rw [htotal] at hready
  exact ⟨session, m, hopen, hready.exchanges hquiet hreads hfuel hfits hpos⟩

theorem quietJvm_quiet : quietJvm.Quiet := ⟨fun _ _ => rfl, fun _ => rfl⟩

/-- STREAMINFO of a mono stream with the given number of frames. -/
def monoInfo (totalSamples : ℕ) : StreamInfo :=
  { StreamInfo.zero with channels := 1, totalSamples := totalSamples }

/-- Two blocks of one frame each. -/
def twoBlocks : List Frame :=
  List.replicate 2 (silentFrame 1 1 one_lt_uint32 one_lt_uint32)

theorem twoBlocks_fits : ∀ b ∈ twoBlocks, b.Fits := by
  intro b hb
  rw [List.eq_of_mem_replicate hb]
  exact ⟨Nat.one_pos, Nat.one_pos, by decide⟩

theorem openDecoder_answers_twoBlocks :
    ∃ session m,
      SessionSource.openDecoder (scriptedReader (monoInfo 2) twoBlocks) quietJvm 0 (.channel 0) =
        (some session, m) ∧
      ∀ requests, List.Forall₂ (fun request exchange => exchange.finished = true ∧
          Answered (request.answer (rowsOf twoBlocks)) exchange.pending exchange.events)
        requests (exchanges (scriptedReader (monoInfo 2) twoBlocks) quietJvm 3 requests session) :=
  openDecoder_answers quietJvm_quiet (.channel 0) ⟨by decide, [], rfl⟩ rfl
    (scriptedReader_opens _ _ _ _ _ _ _) (scriptedReader_seekable _ _ _ _) rfl twoBlocks_fits
    (by rfl) (by decide) (by decide)

end

end JFlac.Decode
