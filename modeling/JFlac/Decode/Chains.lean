import JFlac.Decode.OneShotRanges

/-!
# Chained Ogg decodes

A chained decode reads one link after the other. Every link must have the PCM shape of the first,
as many frames as it declares and, unless it is the last, a verified signature. The decode completes
when all links pass; otherwise it stops at the first that does not, with an exception, and the
consumer has heard the links before it.
-/

namespace JFlac.Decode

open Machine Lib

variable {D : Type}

/-! ## Links -/

/-- A link of a chain: its STREAMINFO with the number of metadata blocks behind it, its audio, and
what `finish_link` says of its signature. -/
structure Link where
  info : StreamInfo
  others : ℕ
  blocks : List Frame
  verified : Bool

/-- The metadata blocks of a link. -/
def Link.metadata (link : Link) : List Metadata :=
  .streamInfo link.info :: List.replicate link.others .other

/-- What libFLAC hands over when it reads a link. -/
def Link.deliveries (link : Link) : List Delivery :=
  link.metadata.map .metadata ++ link.blocks.map .pcm

/-- The link has as many frames as it declares, if it declares a number. -/
def Link.Counts (link : Link) : Prop :=
  link.info.totalSamples = 0 ∨ (rowsOf link.blocks).length = link.info.totalSamples

instance (link : Link) : Decidable link.Counts := inferInstanceAs (Decidable (_ ∨ _))

/-- The audio of a chain up to the first link that fails, and whether all links pass. A link of
another shape is refused before its audio; the other checks come after it. -/
def playLinks (first : StreamInfo) : List Link → List (List Sample) × Bool
  | [] => ([], true)
  | link :: links =>
    if ¬ link.info.sameShape first then ([], false)
    else if ¬ link.Counts then (rowsOf link.blocks, false)
    else if links.isEmpty then (rowsOf link.blocks, true)
    else if link.verified then
      (rowsOf link.blocks ++ (playLinks first links).1, (playLinks first links).2)
    else (rowsOf link.blocks, false)

/-- All links pass when each does, where the last one has no `finish_link`. -/
theorem playLinks_passes {first : StreamInfo} {links : List Link} :
    (playLinks first links).2 = true ↔
      (∀ link ∈ links, link.info.sameShape first ∧ link.Counts) ∧
        ∀ link ∈ links.dropLast, link.verified = true := by
  induction links with
  | nil => simp [playLinks]
  | cons link links ih =>
    unfold playLinks
    by_cases hshape : link.info.sameShape first
    swap
    · simp [hshape]
    rw [if_neg (not_not.mpr hshape)]
    by_cases hcounts : link.Counts
    swap
    · simp [hcounts]
    rw [if_neg (not_not.mpr hcounts)]
    cases links with
    | nil => simp [hshape, hcounts]
    | cons next links =>
      rw [if_neg (by simp)]
      by_cases hverified : link.verified = true
      · rw [if_pos hverified, ih]
        simp only [List.dropLast_cons_cons, List.forall_mem_cons, hverified, hshape, hcounts,
          true_and]
      · simp [hverified]

/-- libFLAC as a reader of links: `At links s` says that the decoder behind `s` stands in front of
these links. -/
structure LibFlac.Chains (F : LibFlac D) (J : Jvm) (source : Source)
    (At : List Link → Stream D → Prop) : Prop where
  inner : ∀ link next links s, At (link :: next :: links) s → ∃ s' d',
    Delivers J source (F.processUntilEndOfLink s.decoder) s.transportCalls link.deliveries true s' ∧
      F.getState s'.decoder = .endOfLink ∧ F.finishLink s'.decoder = ([], link.verified, d') ∧
      At (next :: links) ⟨d', s'.transportCalls⟩
  last : ∀ link s, At [link] s → ∃ s',
    Delivers J source (F.processUntilEndOfLink s.decoder) s.transportCalls link.deliveries true s' ∧
      F.getState s'.decoder = .endOfStream

/-! ## After an exception -/

/-- While an exception is pending no callback reaches the consumer. -/
theorem handle_raised (J : Jvm) (callback : Callback) {m : Machine} (calls : List TransportCall)
    (hpush : m.context.pullMode = false) (hraised : m.Raised) :
    (handle J callback (m, calls)).2.1.Raised ∧
      AddsUnheard m (handle J callback (m, calls)).2.1 := by
  obtain ⟨message, hpending⟩ := hraised
  have habsurd : m.pending ≠ none := by simp [hpending]
  cases callback with
  | write frame =>
    have hstep := decodeWriteCallback_step J frame (m := m.record (.writeCallback frame)) hpush
    show (decodeWriteCallback J frame (m.record (.writeCallback frame))).2.Raised ∧
      AddsUnheard m (decodeWriteCallback J frame (m.record (.writeCallback frame))).2
    generalize decodeWriteCallback J frame (m.record (.writeCallback frame)) = answer at hstep ⊢
    obtain ⟨status, m'⟩ := answer
    dsimp only at hstep ⊢
    -- every step but the refusal begins with nothing pending
    cases hstep with
    | refused => exact ⟨⟨message, hpending⟩, .single rfl ⟨rfl, rfl⟩⟩
    | outside hnone => exact absurd hnone habsurd
    | failed _ _ hnone => exact absurd hnone habsurd
    | threw _ _ hnone => exact absurd hnone habsurd
    | forwarded _ hnone => exact absurd hnone habsurd
  | error status => exact ⟨⟨message, hpending⟩, .single rfl ⟨rfl, rfl⟩⟩
  | transport callback =>
    have hstep := handleTransport_step J callback m calls
    show (handleTransport J callback m calls).2.1.Raised ∧
      AddsUnheard m (handleTransport J callback m calls).2.1
    generalize (handleTransport J callback m calls).2.1 = m' at hstep ⊢
    cases hstep with
    | unchanged => exact ⟨⟨message, hpending⟩, .refl m⟩
    | threw _ hnone => exact absurd hnone habsurd
    | raised _ hnone => exact absurd hnone habsurd
  | metadata block =>
    have hstep := decodeMetadataCallback_step J block (m.record (.metadataCallback block))
    have hfirst : AddsUnheard m (m.record (.metadataCallback block)) := .single rfl ⟨rfl, rfl⟩
    show (decodeMetadataCallback J block (m.record (.metadataCallback block))).Raised ∧
      AddsUnheard m (decodeMetadataCallback J block (m.record (.metadataCallback block)))
    generalize decodeMetadataCallback J block (m.record (.metadataCallback block)) = m' at hstep ⊢
    -- STREAMINFO is not shown to the consumer either
    have hcalls : ∀ {info events after}, StreamInfoCalls info m.pending events after →
        after = some (.flacDecodeException message) ∧
          ∀ e ∈ events, e.chunk? = none ∧ e.isComplete = false := by
      intro info events after h
      refine ⟨h.pending hpending, ?_⟩
      rw [hpending] at h
      cases h with
      | suppressed => simp
      | skipped => simp [Event.chunk?, Event.isComplete]
    cases hstep with
    | ignored => exact ⟨⟨message, hpending⟩, hfirst⟩
    | laterLink => exact ⟨⟨message, hpending⟩, hfirst.trans (.of_history rfl)⟩
    | mismatch =>
      exact ⟨⟨_, rfl⟩, hfirst.trans (.single (throwDecode_history _ _) ⟨rfl, rfl⟩)⟩
    | firstLink info events after _ _ h =>
      exact ⟨⟨message, (hcalls h).1⟩, hfirst.trans ⟨events, rfl, (hcalls h).2⟩⟩
    | stored info events after _ h =>
      exact ⟨⟨message, (hcalls h).1⟩, hfirst.trans ⟨events, rfl, (hcalls h).2⟩⟩

/-- Nor does the rest of a libFLAC call. -/
theorem run_raised (J : Jvm) (activity : Activity D) {m : Machine} (calls : List TransportCall)
    (hpush : m.context.pullMode = false) (hraised : m.Raised) :
    (activity.run (handle J) (m, calls)).2.1.Raised ∧
      AddsUnheard m (activity.run (handle J) (m, calls)).2.1 := by
  have hstep : ∀ (callback : Callback) (s : Machine × List TransportCall),
      s.1.context.pullMode = false ∧ s.1.Raised ∧ AddsUnheard m s.1 →
      (handle J callback s).2.1.context.pullMode = false ∧ (handle J callback s).2.1.Raised ∧
        AddsUnheard m (handle J callback s).2.1 := by
    rintro callback ⟨m', calls'⟩ ⟨hpush', hraised', hadds⟩
    obtain ⟨hraised'', hadds'⟩ := handle_raised J callback calls' hpush' hraised'
    have hsetup : (handle J callback (m', calls')).2.1.context.pullMode = m'.context.pullMode :=
      congrArg Setup.pullMode (handle_setup J callback m' calls')
    exact ⟨hsetup.trans hpush', hraised'', hadds.trans hadds'⟩
  exact (Lib.Calls.run_invariant
    (P := fun s : Machine × List TransportCall =>
      s.1.context.pullMode = false ∧ s.1.Raised ∧ AddsUnheard m s.1)
    hstep activity ⟨hpush, hraised, .refl m⟩).2

/-- A libFLAC call whose first metadata block is refused with an exception. -/
theorem Delivers.call_raised {F : LibFlac D} {J : Jvm} {source : Source} {activity : Activity D}
    {calls : List TransportCall} {block : Metadata} {deliveries : List Delivery} {success : Bool}
    {s : Stream D} (h : Delivers J source activity calls (.metadata block :: deliveries) success s)
    {m m' : Machine} (hnone : m.pending = none) (hsource : m.context.source = source)
    (htake : (Delivery.metadata block).take J m = (.cont, m'))
    (hpush : m'.context.pullMode = false) (hraised : m'.Raised) (api : Api) :
    (F.call J api activity calls m).2.2.Raised ∧
      AddsUnheard m' (F.call J api activity calls m).2.2 := by
  have hrun : (activity.run (handle J) (m, calls)).2.1.Raised ∧
      AddsUnheard m' (activity.run (handle J) (m, calls)).2.1 := by
    generalize hall : Delivery.metadata block :: deliveries = all at h
    induction h with
    | done => cases hall
    | pcm => cases hall
    | error => cases hall
    | transport callback reply next calls calls' _ _ _ hreply _ ih =>
      have hhandle : handle J (.transport callback) (m, calls) = (reply, m, calls') :=
        hreply m hnone hsource
      rw [Lib.Calls.run_call, hhandle]
      exact ih hall
    | metadata block' next calls _ _ _ _ _ =>
      cases hall
      have hhandle : handle J (.metadata block) (m, calls) = ((), m', calls) := by
        simp only [Delivery.take, Prod.mk.injEq, true_and] at htake
        simp only [handle, htake]
      rw [Lib.Calls.run_call, hhandle]
      exact run_raised J _ calls hpush hraised
  exact ⟨hrun.1, hrun.2.trans (.single rfl ⟨rfl, rfl⟩)⟩

/-! ## One link -/

/-- The fields of a context in which an operation keeps its progress. -/
def DecodeContext.progressFields (c : DecodeContext) : Bool × Bool × ℕ × Bool × ℕ × Bool :=
  (c.sawError, c.pullMode, c.maxFrames, c.rangeLimited, c.emittedFrames, c.rangeComplete)

/-- The rest of the context does not matter to the progress of an operation. -/
theorem Playing.unheard {base : List Event} {rows : List (List Sample)} {m m' : Machine}
    (h : Playing base rows m) (hnone : m'.pending = none) (hadds : AddsUnheard m m')
    (hfields : m'.context.progressFields = m.context.progressFields) : Playing base rows m' := by
  obtain ⟨events, hhistory, hheard⟩ := h.heard
  obtain ⟨herror, hpush, hmax, hlimited, hemitted, hcomplete⟩ := by
    simpa only [DecodeContext.progressFields, Prod.mk.injEq] using hfields
  have hwindow : m'.context.window rows = m.context.window rows := by
    unfold DecodeContext.window
    rw [hlimited, hmax]
  obtain ⟨events', hhistory', hheard'⟩ := hadds.heard hhistory hheard
  refine ⟨hnone, by rw [herror, h.error], by rw [hpush, h.push], by rw [hmax]; exact h.bound,
    ⟨events', hhistory', ?_⟩, by rw [hwindow, hemitted, h.emitted], ?_⟩
  · rw [hwindow]
    exact hheard'
  · rw [hcomplete, hlimited, hmax, h.complete]

/-- A chained operation between two links; `first` is the STREAMINFO of the chain once there is
one, and `ahead` links may still begin before the count of links wraps. -/
structure InChain (source : Source) (first : StreamInfo) (ahead : ℕ) (c : DecodeContext) :
    Prop where
  source : c.source = source
  chained : c.decodeChainedOgg = true
  unlimited : c.rangeLimited = false
  md5 : c.chainedLinkMd5Failed = false
  shape : 0 < c.chainedLinkCount → c.streamInfo = first
  room : c.chainedLinkCount + ahead < 4294967296

/-- A chained operation in a link of `info` that began when `start` frames had been emitted. -/
structure InLink (source : Source) (first info : StreamInfo) (ahead start : ℕ)
    (c : DecodeContext) : Prop extends InChain source first ahead c where
  begun : 0 < c.chainedLinkCount
  total : c.currentLinkTotalSamples = info.totalSamples
  start : c.currentLinkStartEmittedFrames = start

theorem InLink.advances {source : Source} {first info : StreamInfo} {ahead start : ℕ}
    {c c' : DecodeContext} (h : InLink source first info ahead start c)
    (hadvances : Advances c c') : InLink source first info ahead start c' := by
  obtain ⟨emitted, complete, rfl⟩ := hadvances
  exact ⟨⟨h.source, h.chained, h.unlimited, h.md5, h.shape, h.room⟩, h.begun, h.total, h.start⟩

theorem Accepts.append {J : Jvm} {m m₁ m₂ : Machine} {deliveries deliveries' : List Delivery}
    (h : Accepts J m deliveries m₁) (h' : Accepts J m₁ deliveries' m₂) :
    Accepts J m (deliveries ++ deliveries') m₂ := by
  induction h with
  | nil => exact h'
  | cons m m₁ _ delivery deliveries hfirst hnone _ ih =>
    exact .cons m m₁ m₂ delivery _ hfirst hnone (ih h')

/-- The frame-count check at the end of a link. -/
theorem Link.validate (link : Link) {m : Machine}
    (htotal : m.context.currentLinkTotalSamples = link.info.totalSamples)
    (hemitted : m.context.emittedForLink = (rowsOf link.blocks).length) :
    validateChainedLinkSampleCount m = if link.Counts then (true, m) else
      (false, m.throwDecode
        (chainedLinkMessage m.context.emittedForLink m.context.currentLinkTotalSamples)) := by
  unfold validateChainedLinkSampleCount
  dsimp only
  rw [htotal, hemitted]
  by_cases hunknown : link.info.totalSamples = 0
  · have hcounts : link.Counts := .inl hunknown
    rw [if_pos hunknown, if_pos hcounts]
  by_cases hequal : (rowsOf link.blocks).length = link.info.totalSamples
  · have hcounts : link.Counts := .inr hequal
    rw [if_neg hunknown, if_pos hequal, if_pos hcounts]
  · have hcounts : ¬ link.Counts := not_or.mpr ⟨hunknown, hequal⟩
    rw [if_neg hunknown, if_neg hequal, if_neg hcounts]

section
variable {F : LibFlac D} {J : Jvm} {source : Source} {first : StreamInfo} {base : List Event}
  {rows : List (List Sample)} {ahead : ℕ} {m : Machine}

/-- Other metadata is ignored. -/
theorem Playing.acceptsOthers (h : Playing base rows m) (count : ℕ) :
    ∃ m', Accepts J m ((List.replicate count Metadata.other).map .metadata) m' ∧
      Playing base rows m' ∧ m'.context = m.context := by
  induction count generalizing m with
  | zero => exact ⟨m, .nil m, h, rfl⟩
  | succ count ih =>
    have hnext : Playing base rows (m.record (.metadataCallback .other)) :=
      h.adds rfl h.unpending (.single rfl ⟨rfl, rfl⟩)
    obtain ⟨m', haccepts, hplaying, hcontext⟩ := ih hnext
    exact ⟨m', .cons m _ m' _ _ rfl h.unpending haccepts, hplaying, hcontext⟩

/-- STREAMINFO of a link: it begins the link, or is refused. -/
theorem Playing.takeLink (hquiet : J.Quiet) (h : Playing base rows m)
    (hchain : InChain source first (ahead + 1) m.context) {info : StreamInfo}
    (hfirst : m.context.chainedLinkCount = 0 → info = first) :
    ∃ m', (Delivery.metadata (.streamInfo info)).take J m = (.cont, m') ∧ AddsUnheard m m' ∧
      m'.context.pullMode = false ∧
      if info.sameShape first then
        Playing base rows m' ∧ InLink source first info ahead rows.length m'.context
      else m'.Raised := by
  have hwindow : m.context.window rows = rows := by
    unfold DecodeContext.window
    rw [if_neg (by simp [hchain.unlimited])]
  have hemitted : m.context.emittedFrames = rows.length := by rw [h.emitted, hwindow]
  generalize hrecord : m.record (.metadataCallback (.streamInfo info)) = m₀
  have hadds₀ : AddsUnheard m m₀ := by
    rw [← hrecord]
    exact .single rfl ⟨rfl, rfl⟩
  have hcontext₀ : m₀.context = m.context := by rw [← hrecord]; rfl
  have hnone₀ : m₀.pending = none := by rw [← hrecord]; exact h.unpending
  refine ⟨decodeMetadataCallback J (.streamInfo info) m₀, ?_, ?_⟩
  · rw [← hrecord]
    rfl
  unfold decodeMetadataCallback
  dsimp only
  rw [hcontext₀, if_pos hchain.chained]
  by_cases hcount : 0 < m.context.chainedLinkCount
  · rw [if_pos hcount, hchain.shape hcount]
    by_cases hshape : info.sameShape first
    · -- a later link of the same shape
      rw [if_pos hshape, if_pos hshape]
      have hadds : AddsUnheard m (m₀.withContext
          (m.context.beginLink info (add32 m.context.chainedLinkCount 1))) :=
        hadds₀.trans (.of_history rfl)
      -- there is room for this link, so the counter does not wrap here
      have hroom := hchain.room
      have hnext : add32 m.context.chainedLinkCount 1 = m.context.chainedLinkCount + 1 :=
        add32_of_lt (by omega)
      have hahead : add32 m.context.chainedLinkCount 1 + ahead < 4294967296 := by omega
      exact ⟨hadds, h.push, h.unheard hnone₀ hadds rfl,
        ⟨hchain.source, hchain.chained, hchain.unlimited, hchain.md5,
          fun _ => hchain.shape hcount, hahead⟩,
        show 0 < add32 m.context.chainedLinkCount 1 by omega, rfl, hemitted⟩
    · rw [if_neg hshape, if_neg hshape]
      exact ⟨hadds₀.trans (.single rfl ⟨rfl, rfl⟩), h.push, _, rfl⟩
  · -- the first link, which is shown to the consumer
    rw [if_neg hcount, if_pos (by rw [hfirst (by omega)]; exact ⟨rfl, rfl, rfl⟩)]
    obtain ⟨events, hnone, hcontext, hhistory, hevents⟩ := hquiet.captureStreamInfo
      (m := m₀.withContext (m.context.beginLink info 1)) hnone₀ info info.chainShape
    have hadds := hadds₀.trans ⟨events, hhistory, hevents⟩
    refine ⟨hadds, by rw [hcontext]; exact h.push, h.unheard hnone hadds (by rw [hcontext]; rfl), ?_⟩
    rw [hcontext]
    have hroom := hchain.room
    have hahead : 1 + ahead < 4294967296 := by omega
    exact ⟨⟨hchain.source, hchain.chained, hchain.unlimited, hchain.md5,
      fun _ => hfirst (by omega), hahead⟩, Nat.one_pos, rfl, hemitted⟩

/-- A link of the common shape is accepted. -/
theorem Playing.acceptsLink (hquiet : J.Quiet) (h : Playing base rows m)
    (hchain : InChain source first (ahead + 1) m.context) {link : Link}
    (hfirst : m.context.chainedLinkCount = 0 → link.info = first)
    (hshape : link.info.sameShape first) (hfits : ∀ b ∈ link.blocks, b.Fits) :
    ∃ m', Accepts J m link.deliveries m' ∧ Playing base (rows ++ rowsOf link.blocks) m' ∧
      InLink source first link.info ahead rows.length m'.context := by
  obtain ⟨m₁, htake, -, -, hplaying⟩ := h.takeLink hquiet hchain hfirst
  rw [if_pos hshape] at hplaying
  obtain ⟨m₂, hothers, hplaying₂, hcontext⟩ := hplaying.1.acceptsOthers link.others
  obtain ⟨m₃, hblocks, hplaying₃, hadvances⟩ := hplaying₂.accepts hquiet hfits
  refine ⟨m₃, ?_, hplaying₃, ?_⟩
  · exact .cons m m₁ m₃ _ _ htake hplaying.1.unpending (hothers.append hblocks)
  · exact (hcontext ▸ hplaying.2).advances hadvances

theorem Playing.validateLink {link : Link} (h : Playing base (rows ++ rowsOf link.blocks) m)
    (hlink : InLink source first link.info ahead rows.length m.context) :
    validateChainedLinkSampleCount m = if link.Counts then (true, m) else
      (false, m.throwDecode
        (chainedLinkMessage m.context.emittedForLink m.context.currentLinkTotalSamples)) := by
  have hemitted : m.context.emittedForLink = (rowsOf link.blocks).length := by
    unfold DecodeContext.emittedForLink
    rw [h.emitted, hlink.start]
    unfold DecodeContext.window
    rw [if_neg (by simp [hlink.unlimited]), List.length_append, Nat.add_sub_cancel_left]
  exact link.validate hlink.total hemitted

/-- How the loop over the links ends. -/
structure LinksPlayed (base : List Event) (rows : List (List Sample)) (success : Bool)
    (m : Machine) : Prop where
  heard : ∃ events, m.history = base ++ events ∧ Heard events rows
  passed : success = true → m.pending = none ∧ m.context.chainedLinkMd5Failed = false
  failed : success = false → m.pending = none ∨ m.Raised

theorem LinksPlayed.of_playing {success : Bool} (h : Playing base rows m)
    (hunlimited : m.context.rangeLimited = false) {m' : Machine} (hadds : AddsUnheard m m')
    (hpassed : success = true → m'.pending = none ∧ m'.context.chainedLinkMd5Failed = false)
    (hfailed : success = false → m'.pending = none ∨ m'.Raised) :
    LinksPlayed base rows success m' := by
  obtain ⟨events, hhistory, hheard⟩ := h.heard
  have hwindow : m.context.window rows = rows := by
    unfold DecodeContext.window
    rw [if_neg (by simp [hunlimited])]
  rw [hwindow] at hheard
  exact ⟨hadds.heard hhistory hheard, hpassed, hfailed⟩

variable {At : List Link → Stream D → Prop}

/-- The loop plays the links up to the first that fails. -/
theorem Playing.processLinks (hquiet : J.Quiet) (hreads : F.Chains J source At) {links : List Link}
    (hfits : ∀ link ∈ links, ∀ b ∈ link.blocks, b.Fits) {fuel : ℕ} (hfuel : links.length ≤ fuel)
    (hlinks : links ≠ []) (h : Playing base rows m)
    (hchain : InChain source first links.length m.context)
    (hfirst : m.context.chainedLinkCount = 0 → ∀ link ∈ links.head?, link.info = first)
    {s : Stream D} (hat : At links s) :
    ∃ s' m', processLinks F J fuel s m = (some (playLinks first links).2, s', m') ∧
      LinksPlayed base (rows ++ (playLinks first links).1) (playLinks first links).2 m' := by
  induction links generalizing rows m s fuel with
  | nil => exact absurd rfl hlinks
  | cons link links ih =>
    obtain ⟨fuel, rfl⟩ : ∃ n, fuel = n + 1 := ⟨fuel - 1, by rw [List.length_cons] at hfuel; omega⟩
    rw [List.length_cons, Nat.add_le_add_iff_right] at hfuel
    rw [List.forall_mem_cons] at hfits
    have hinfo : m.context.chainedLinkCount = 0 → link.info = first :=
      fun hcount => hfirst hcount link rfl
    -- what libFLAC hands over does not depend on whether the link is the last one
    obtain ⟨s', hdelivers, hnext⟩ : ∃ s', Delivers J source (F.processUntilEndOfLink s.decoder)
        s.transportCalls link.deliveries true s' ∧
        ((links = [] ∧ F.getState s'.decoder = .endOfStream) ∨
          (links ≠ [] ∧ F.getState s'.decoder = .endOfLink ∧ ∃ d',
            F.finishLink s'.decoder = ([], link.verified, d') ∧ At links ⟨d', s'.transportCalls⟩)) := by
      cases links with
      | nil =>
        obtain ⟨s', hdelivers, hstate⟩ := hreads.last link s hat
        exact ⟨s', hdelivers, .inl ⟨rfl, hstate⟩⟩
      | cons next links =>
        obtain ⟨s', d', hdelivers, hstate, hfinish, hat'⟩ := hreads.inner link next links s hat
        exact ⟨s', hdelivers, .inr ⟨by simp, hstate, d', hfinish, hat'⟩⟩
    unfold Decode.processLinks playLinks
    dsimp only
    by_cases hshape : link.info.sameShape first
    swap
    · -- STREAMINFO is refused, and nothing is heard after it
      obtain ⟨m₁, htake, hadds, hpush, hraised⟩ := h.takeLink hquiet hchain hinfo
      rw [if_neg hshape] at hraised
      obtain ⟨hraised', hadds'⟩ := hdelivers.call_raised (F := F) h.unpending hchain.source htake
        hpush hraised .processUntilEndOfLink
      obtain ⟨message, hpending⟩ := hraised'
      rw [if_pos (by simp [exceptionCheck, hpending]), if_pos hshape, List.append_nil]
      exact ⟨_, _, rfl, .of_playing h hchain.unlimited (hadds.trans hadds') (by simp)
        fun _ => .inr ⟨message, hpending⟩⟩
    obtain ⟨m₁, haccepts, hplaying₁, hlink⟩ :=
      h.acceptsLink hquiet hchain hinfo hshape hfits.1
    have hcall := hdelivers.call (F := F) h.unpending hchain.source haccepts .processUntilEndOfLink
    generalize hm₂ : m₁.record (.returned .processUntilEndOfLink true (F.getState s'.decoder) none) =
      m₂ at hcall
    have hcontext₂ : m₂.context = m₁.context := by rw [← hm₂]; rfl
    have hplaying : Playing base (rows ++ rowsOf link.blocks) m₂ := by
      rw [← hm₂]
      exact hplaying₁.adds rfl hplaying₁.unpending (.single rfl ⟨rfl, rfl⟩)
    rw [← hcontext₂] at hlink
    rw [hcall]
    dsimp only
    rw [if_neg (by simp [hplaying.error, exceptionCheck, hplaying.unpending]),
      if_neg (not_not.mpr hshape), hplaying.validateLink hlink]
    by_cases hcounts : link.Counts
    swap
    · -- both states check the count
      rw [if_neg hcounts, if_pos hcounts]
      have hplayed : LinksPlayed base (rows ++ rowsOf link.blocks) false (m₂.throwDecode
          (chainedLinkMessage m₂.context.emittedForLink m₂.context.currentLinkTotalSamples)) :=
        .of_playing hplaying hlink.unlimited (.single (throwDecode_history _ _) ⟨rfl, rfl⟩) (by simp)
          fun _ => .inr ⟨_, rfl⟩
      rcases hnext with ⟨-, hstate⟩ | ⟨-, hstate, -⟩
      · rw [hstate]
        exact ⟨_, _, rfl, hplayed⟩
      · rw [hstate]
        exact ⟨_, _, rfl, hplayed⟩
    rw [if_pos hcounts, if_neg (not_not.mpr hcounts)]
    rcases hnext with ⟨rfl, hstate⟩ | ⟨hmore, hstate, d', hfinish, hat'⟩
    · rw [hstate, if_pos List.isEmpty_nil]
      exact ⟨_, _, rfl, .of_playing hplaying hlink.unlimited (.refl m₂)
        (fun _ => ⟨hplaying.unpending, hlink.md5⟩) (by simp)⟩
    have hrest : ¬ links.isEmpty = true := by simp [hmore]
    rw [hstate, if_neg hrest]
    have hfinished : F.callFinishLink s' m₂ = (link.verified, ⟨d', s'.transportCalls⟩,
        m₂.record (.returned .finishLink link.verified (F.getState d') m₂.pending)) := by
      unfold LibFlac.callFinishLink
      rw [hfinish]
      rfl
    dsimp only
    rw [if_neg (by simp), hfinished]
    dsimp only
    rw [record_context, if_neg (by simp [hplaying.error])]
    generalize hm₃ : m₂.record (.returned .finishLink link.verified (F.getState d') m₂.pending) = m₃
    have hcontext₃ : m₃.context = m₂.context := by rw [← hm₃]; rfl
    have hplaying₃ : Playing base (rows ++ rowsOf link.blocks) m₃ := by
      rw [← hm₃]
      exact hplaying.adds rfl hplaying.unpending (.single rfl ⟨rfl, rfl⟩)
    rw [← hcontext₃] at hlink
    by_cases hverified : link.verified = true
    · rw [if_neg (by simp [hverified]), if_pos hverified]
      obtain ⟨s'', m', hloop, hplayed⟩ := ih hfits.2 hfuel hmore hplaying₃ hlink.toInChain
        (fun hcount => absurd hlink.begun (by omega)) hat'
      rw [List.append_assoc] at hplayed
      exact ⟨s'', m', hloop, hplayed⟩
    · rw [if_pos (by simp [hverified]), if_neg hverified]
      exact ⟨_, _, rfl, .of_playing hplaying₃ hlink.unlimited (.of_history rfl) (by simp)
        fun _ => .inl hplaying₃.unpending⟩

/-! ## Whole-stream decodes -/

/-- Where a whole-stream decode reads from. -/
inductive WholeSource where
  | file
  | inputStream
  | channel (position : ℤ)

namespace WholeSource

/-- The native call that decodes a whole stream. -/
def decode (F : LibFlac D) (J : Jvm) (fuel : ℕ) (container : ℤ)
    (checkMd5 decodeChainedOgg : Bool) : WholeSource → Outcome
  | file => decodeFile F J fuel true true container checkMd5 decodeChainedOgg
  | inputStream => decodeStream F J fuel true true container checkMd5 decodeChainedOgg
  | channel _ => decodeChannel F J fuel true true container checkMd5 decodeChainedOgg

/-- The source fields of the context. -/
def fields : WholeSource → Source
  | file => DecodeContext.zero.source
  | inputStream => { DecodeContext.zero.source with inputStream := true }
  | channel position => channelSource position

/-- The transport of libFLAC. -/
def transport : WholeSource → Transport
  | file => .file
  | inputStream => .inputStream
  | channel _ => .seekableChannel

/-- The transport calls made before libFLAC is initialised. -/
def calls : WholeSource → List TransportCall
  | file => []
  | inputStream => []
  | channel _ => [.position]

/-- A channel answers with the position it is at. -/
def Starts (J : Jvm) : WholeSource → Prop
  | file => True
  | inputStream => True
  | channel position => 0 ≤ position ∧ ∃ bytes, J.transport [] .position = .ok ⟨position, bytes⟩

end WholeSource

theorem Jvm.Quiet.prepareDecodeInputStream (hquiet : J.Quiet) (hnone : m.pending = none) :
    ∃ m' events, Decode.prepareDecodeInputStream J m = (true, m') ∧ m'.pending = none ∧
      m'.context = m.context.withInputStream ∧ m'.history = m.history ++ events ∧
      Heard events [] := by
  have hprepares := prepareDecodeInputStream_prepares J hnone
  have hsuccess : (Decode.prepareDecodeInputStream J m).1 = true := by
    unfold Decode.prepareDecodeInputStream callJavaObject
    simp [hquiet.callJava, hnone, exceptionCheck]
  obtain ⟨events, hhistory, hinternal⟩ := hprepares.adds
  exact ⟨_, events, Prod.ext hsuccess rfl, hprepares.pending hsuccess, hprepares.context hsuccess,
    hhistory, .of_internal hinternal⟩

/-- A whole-stream decode reaches its initialised decoder. -/
theorem WholeSource.decode_initialised (hquiet : J.Quiet) (input : WholeSource)
    (hstarts : input.Starts J) {container : ℤ} (hcontainer : isValidContainer container = true)
    {checkMd5 decodeChainedOgg : Bool} {decoder : D}
    (hconfigures : F.Configures input.transport (.whole container checkMd5 decodeChainedOgg) decoder)
    (fuel : ℕ) :
    ∃ m what, input.decode F J fuel container checkMd5 decodeChainedOgg =
        processAndFinish F J fuel what checkMd5 ⟨decoder, input.calls⟩ m ∧
      Initialised (.whole container checkMd5 decodeChainedOgg) input.fields m := by
  have hrequest : rejectRequest (.whole container checkMd5 decodeChainedOgg) = none := by
    simp [rejectRequest, DecodeRequest.whole]
  have hopened : ∃ m, input.decode F J fuel container checkMd5 decodeChainedOgg =
      decodePrepared F J fuel input.transport (.whole container checkMd5 decodeChainedOgg)
        input.calls m ∧
      Prepared (.whole container checkMd5 decodeChainedOgg) input.fields m := by
    cases input with
    | file => exact decodeFileInternal_prepares hquiet hcontainer hrequest fuel
    | channel position =>
      obtain ⟨hnonneg, bytes, hstart⟩ := hstarts
      exact decodeChannelInternal_prepares hquiet hcontainer hrequest hstart hnonneg fuel
    | inputStream =>
      obtain ⟨m₁, events, hprepared, hnone, hcontext, hhistory, hheard⟩ :=
        hquiet.prepareDecodeContext (m := Machine.start.withContext
          (oneShotContext (.whole container checkMd5 decodeChainedOgg))) rfl
      obtain ⟨m₂, events', hstream, hnone', hcontext', hhistory', hheard'⟩ :=
        hquiet.prepareDecodeInputStream hnone
      refine ⟨m₂, ?_, hnone', ?_, ?_⟩
      · show decodeStreamInternal F J fuel true true container checkMd5 decodeChainedOgg = _
        unfold decodeStreamInternal
        dsimp only
        rw [if_neg (by simp [hcontainer]), if_neg (by simp), hprepared]
        dsimp only
        rw [if_neg (by simp), hstream]
        exact if_neg (by simp)
      · rw [hcontext', hcontext]
        rfl
      · rw [hhistory', hhistory]
        exact hheard.append hheard'
  obtain ⟨m, hprepared, hm⟩ := hopened
  obtain ⟨m', what, hdecode, hm'⟩ := hm.initialises hconfigures fuel input.calls
  exact ⟨m', what, hprepared.trans hdecode, hm'⟩

/-- When all links pass, all their audio is played. -/
theorem playLinks_rows {first : StreamInfo} {links : List Link}
    (h : (playLinks first links).2 = true) :
    (playLinks first links).1 = rowsOf (links.flatMap Link.blocks) := by
  induction links with
  | nil => rfl
  | cons link links ih =>
    unfold playLinks at h ⊢
    rw [List.flatMap_cons, rowsOf_append]
    split at h
    · simp at h
    rename_i hshape
    rw [if_neg hshape]
    split at h
    · simp at h
    rename_i hcounts
    rw [if_neg hcounts]
    split at h
    · rename_i hlast
      rw [if_pos hlast, List.isEmpty_iff.mp hlast]
      simp
    rename_i hmore
    rw [if_neg hmore]
    split at h
    · rename_i hverified
      rw [if_pos hverified, ih h]
    · simp at h

/-- A chained decode of fewer links than its counter can count is all or nothing: it completes, with
the audio of all links, exactly when every link has the shape of the first and the number of frames
it declares, `finish_link` succeeds for every link but the last, and `finish` succeeds. Otherwise it
raises, and the consumer has heard the links up to the first that failed. -/
theorem decodeChained_answered (hquiet : J.Quiet) (input : WholeSource) (hstarts : input.Starts J)
    {checkMd5 : Bool} {decoder : D}
    (hconfigures : F.Configures input.transport (.whole containerOgg checkMd5 true) decoder)
    (hreads : F.Chains J input.fields At) {link : Link} {links : List Link}
    (hat : At (link :: links) ⟨decoder, input.calls⟩)
    (hfits : ∀ l ∈ link :: links, ∀ b ∈ l.blocks, b.Fits) {finishes : Bool}
    (hfinish : ∀ d, F.finish d = finishes) (hcount : links.length + 1 < 4294967296) {fuel : ℕ}
    (hfuel : links.length < fuel) :
    (input.decode F J fuel containerOgg checkMd5 true).finished = true ∧
      if ((∀ l ∈ link :: links, l.info.sameShape link.info ∧ l.Counts) ∧
          ∀ l ∈ (link :: links).dropLast, l.verified = true) ∧ finishes = true then
        (input.decode F J fuel containerOgg checkMd5 true).machine.pending = none ∧
          Served (input.decode F J fuel containerOgg checkMd5 true).machine.history
            (rowsOf ((link :: links).flatMap Link.blocks))
      else
        (input.decode F J fuel containerOgg checkMd5 true).machine.Raised ∧
          Heard (input.decode F J fuel containerOgg checkMd5 true).machine.history
            (playLinks link.info (link :: links)).1 := by
  obtain ⟨m, what, hdecode, hm⟩ := input.decode_initialised hquiet hstarts rfl hconfigures fuel
  have hplaying : Playing [] [] m := by
    refine .begin hm.pending rfl hm.heard ?_ ?_ ?_ ?_ ?_
    · rw [hm.context]; rfl
    · rw [hm.context]; rfl
    · rw [hm.context]; exact Nat.zero_lt_succ _
    · rw [hm.context]; rfl
    · rw [hm.context]; rfl
  have hchain : InChain input.fields link.info (link :: links).length m.context := by
    rw [hm.context]
    have hroom : 0 + (links.length + 1) < 4294967296 := by omega
    exact ⟨rfl, rfl, rfl, rfl, fun hcount => absurd hcount (by exact Nat.lt_irrefl 0), hroom⟩
  obtain ⟨s', m', hloop, hplayed⟩ := hplaying.processLinks hquiet hreads hfits
    (show (link :: links).length ≤ fuel from hfuel) (List.cons_ne_nil _ _) hchain
    (fun _ l hl => congrArg Link.info (Option.some.inj hl).symm) hat
  rw [List.nil_append] at hplayed
  have hprocess : Decode.processDecodeStream F J fuel ⟨decoder, input.calls⟩ m =
      (some (playLinks link.info (link :: links)).2, s', m') := by
    unfold Decode.processDecodeStream
    rw [if_neg (by simp [hchain.unlimited]), if_pos hchain.chained]
    exact hloop
  rw [hdecode]
  unfold processAndFinish
  rw [hprocess]
  dsimp only
  refine ⟨rfl, ?_⟩
  obtain ⟨events, hhistory, hheard⟩ := hplayed.heard
  by_cases hpasses : ((∀ l ∈ link :: links, l.info.sameShape link.info ∧ l.Counts) ∧
      ∀ l ∈ (link :: links).dropLast, l.verified = true) ∧ finishes = true
  · have hsecond := playLinks_passes.mpr hpasses.1
    rw [if_pos hpasses, hsecond]
    obtain ⟨hnone, hmd5⟩ := hplayed.passed hsecond
    rw [finishDecode_completes hquiet hnone ((hfinish s'.decoder).trans hpasses.2)
      (by rw [hmd5]; rfl) what]
    obtain ⟨events', hhistory', hserved⟩ := Heard.completed hhistory hheard F s'
    rw [hhistory', List.nil_append, ← playLinks_rows hsecond]
    exact ⟨hnone, hserved⟩
  · rw [if_neg hpasses]
    have hfailed : (playLinks link.info (link :: links)).2 = false ∨
        F.finish s'.decoder = false := by
      rw [hfinish]
      by_contra hgood
      rw [not_or, Bool.not_eq_false, Bool.not_eq_false] at hgood
      exact hpasses ⟨playLinks_passes.mp hgood.1, hgood.2⟩
    have hmay : m'.MayRaise := by
      cases hsecond : (playLinks link.info (link :: links)).2 with
      | false => exact hplayed.failed hsecond
      | true => exact .inl (hplayed.passed hsecond).1
    obtain ⟨hraised, hadds⟩ := finishDecode_fails hmay hfailed what checkMd5
    obtain ⟨events', hhistory', hheard'⟩ := hadds.heard hhistory hheard
    refine ⟨hraised, ?_⟩
    rw [hhistory', List.nil_append]
    exact hheard'

end

/-! ## A scripted chain -/

/-- The scripts of the links of a chain. -/
def linkScripts : List Link → List Script
  | [] => []
  | link :: links =>
    ⟨link.deliveries.map Delivery.callback, true,
      if links.isEmpty then .endOfStream else .endOfLink⟩ :: linkScripts links

/-- The scripted library reads chains whose signatures are all verified. -/
theorem scripted_chains (scripts : List Script) (J : Jvm) (source : Source) :
    (scripted scripts).Chains J source fun links s =>
      s.decoder.scripts = linkScripts links ∧ ∀ link ∈ links, link.verified = true := by
  have hdelivers : ∀ (link : Link) (links : List Link) (s : Stream Scripted),
      s.decoder.scripts = linkScripts (link :: links) →
      Delivers J source ((scripted scripts).processUntilEndOfLink s.decoder) s.transportCalls
        link.deliveries true ⟨⟨linkScripts links,
          if links.isEmpty then .endOfStream else .endOfLink⟩, s.transportCalls⟩ := by
    intro link links s hat
    show Delivers J source (s.decoder.next fun _ => true) _ _ _ _
    unfold Scripted.next
    rw [hat]
    simp only [linkScripts, List.filter_true]
    exact play_delivers J source _ _ _
  refine ⟨fun link next links s hat => ?_, fun link s hat => ?_⟩
  · refine ⟨_, ⟨linkScripts (next :: links), .endOfLink⟩, hdelivers link (next :: links) s hat.1,
      rfl, ?_, rfl, fun l hl => hat.2 l (List.mem_cons_of_mem _ hl)⟩
    rw [hat.2 link List.mem_cons_self]
    rfl
  · exact ⟨_, hdelivers link [] s hat.1, rfl⟩

theorem scripted_configures (scripts : List Script) (transport : Transport) (checkMd5 : Bool) :
    (scripted scripts).Configures transport (.whole containerOgg checkMd5 true) ⟨scripts, .other⟩ :=
  ⟨_, _, _, rfl, ⟨rfl, rfl⟩, by cases checkMd5 <;> rfl, rfl⟩

/-- A chain of two links, the second of which has other STREAMINFO totals. -/
def twoLinks : List Link :=
  [⟨monoInfo 2, 0, twoBlocks, true⟩, ⟨monoInfo 0, 1, twoBlocks, true⟩]

theorem decodeChained_answered_twoLinks :
    (WholeSource.inputStream.decode (scripted (linkScripts twoLinks)) quietJvm 2 containerOgg true
        true).finished = true ∧
      if ((∀ l ∈ twoLinks, l.info.sameShape (monoInfo 2) ∧ l.Counts) ∧
          ∀ l ∈ twoLinks.dropLast, l.verified = true) ∧ true = true then
        (WholeSource.inputStream.decode (scripted (linkScripts twoLinks)) quietJvm 2 containerOgg
            true true).machine.pending = none ∧
          Served (WholeSource.inputStream.decode (scripted (linkScripts twoLinks)) quietJvm 2
            containerOgg true true).machine.history (rowsOf (twoLinks.flatMap Link.blocks))
      else
        (WholeSource.inputStream.decode (scripted (linkScripts twoLinks)) quietJvm 2 containerOgg
            true true).machine.Raised ∧
          Heard (WholeSource.inputStream.decode (scripted (linkScripts twoLinks)) quietJvm 2
            containerOgg true true).machine.history (playLinks (monoInfo 2) twoLinks).1 :=
  decodeChained_answered quietJvm_quiet .inputStream trivial
    (scripted_configures (linkScripts twoLinks) _ true) (scripted_chains (linkScripts twoLinks) _ _)
    ⟨rfl, by simp⟩ (by simpa using twoBlocks_fits) (fun _ => rfl) (by decide) (by decide)

end JFlac.Decode
