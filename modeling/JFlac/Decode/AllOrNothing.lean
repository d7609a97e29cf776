import JFlac.Decode.Chains
import JFlac.Decode.Disturbance
import JFlac.Decode.StreamInfoFirst

/-!
# Chained decodes are all or nothing

A chained decode over any sequence of links, in which Java code, allocations, the transport and
libFLAC may fail at any time. It completes exactly when nothing has failed, every link has the shape
of the first and the frames it declares, every inner link is verified and `finish` succeeds; and
whatever happens, no PCM follows a failure or the first link that breaks a rule. The links are
counted in 32 bits, so this holds for chains that end, or break a rule, within 2^32 links;
`mixedChain` is a longer one.
-/

namespace JFlac.Decode

open Machine Lib

variable {D : Type}

/-! ## Links -/

/-- The link breaks none of the rules of its chain. -/
def Link.Passes (first : StreamInfo) (link : Link) : Prop :=
  link.info.sameShape first ∧ link.Counts ∧ link.verified = true

/-- What may be heard of a link. -/
def Link.audible (first : StreamInfo) (link : Link) : List (List Sample) :=
  if link.info.sameShape first then rowsOf link.blocks else []

/-- The chain ends, or breaks a rule, within this many links. -/
def EndsWithin (room : ℕ) (first : StreamInfo) (links : List Link) : Prop :=
  links.length ≤ room ∨ ∃ link ∈ links.take room, ¬ link.Passes first

theorem EndsWithin.cons {room : ℕ} {first : StreamInfo} {link : Link} {links : List Link}
    (h : EndsWithin room first (link :: links)) :
    ∃ rest, room = rest + 1 ∧ (link.Passes first → EndsWithin rest first links) := by
  cases room with
  | zero =>
    rcases h with hlength | ⟨_, hmem, -⟩
    · simp at hlength
    · simp at hmem
  | succ rest =>
    refine ⟨rest, rfl, fun hpasses => ?_⟩
    rcases h with hlength | ⟨breaking, hmem, hbreaks⟩
    · exact .inl (Nat.le_of_succ_le_succ hlength)
    · rw [List.take_succ_cons, List.mem_cons] at hmem
      rcases hmem with rfl | hmem
      · exact absurd hpasses hbreaks
      · exact .inr ⟨breaking, hmem, hbreaks⟩

/-- What may be heard of a link belongs to what is heard up to the first link that fails. -/
theorem Link.audible_prefix (first : StreamInfo) (link : Link) (links : List Link) :
    link.audible first <+: (playLinks first (link :: links)).1 := by
  unfold Link.audible playLinks
  by_cases hshape : link.info.sameShape first
  swap
  · rw [if_neg hshape, if_pos hshape]
  rw [if_pos hshape, if_neg (not_not.mpr hshape)]
  split
  · exact List.prefix_refl _
  split
  · exact List.prefix_refl _
  split
  · exact List.prefix_append _ _
  · exact List.prefix_refl _

/-- libFLAC as a reader of links, any of which may fail; `finishes` is what `finish` says behind the
last one. -/
structure LibFlac.OffersChain (F : LibFlac D) (J : Jvm) (source : Source) (finishes : Bool)
    (At : List Link → Stream D → Prop) : Prop where
  inner : ∀ link next links s, At (link :: next :: links) s → ∃ s',
    Offers J source (F.processUntilEndOfLink s.decoder) s.transportCalls link.deliveries s' ∧
      F.getState s'.decoder = .endOfLink ∧ ∃ errors d',
        F.finishLink s'.decoder = (errors, link.verified, d') ∧
          (errors = [] → At (next :: links) ⟨d', s'.transportCalls⟩)
  last : ∀ link s, At [link] s → ∃ s',
    Offers J source (F.processUntilEndOfLink s.decoder) s.transportCalls link.deliveries s' ∧
      F.getState s'.decoder = .endOfStream ∧ F.finish s'.decoder = finishes

/-- Where the decode is when these deliveries of a link are still to come. -/
inductive LinkState (source : Source) (first : StreamInfo) (link : Link) (begun : ℕ)
    (rows : List (List Sample)) (deliveries : List Delivery) (m : Machine) : Prop
  | before (hall : deliveries = link.deliveries) (h : Flowing source first begun rows m)
  | inside (others : ℕ) (blocks : List Frame) (played : List (List Sample))
      (hrest : deliveries =
        (List.replicate others Metadata.other).map .metadata ++ blocks.map .pcm)
      (hshape : link.info.sameShape first)
      (h : FlowingIn source first link.info (begun + 1) rows.length played m)
      (hplayed : played ++ rowsOf blocks = rows ++ rowsOf link.blocks)

section
variable {F : LibFlac D} {J : Jvm} {source : Source} {first : StreamInfo} {link : Link}
  {begun : ℕ} {rows : List (List Sample)} {deliveries : List Delivery} {m m' : Machine}

/-- Nothing has gone wrong, and no more was heard than may be. -/
theorem LinkState.flowing (h : LinkState source first link begun rows deliveries m) :
    ∃ begun' played, Flowing source first begun' played m ∧
      played <+: rows ++ link.audible first := by
  cases h with
  | before _ h => exact ⟨_, _, h, List.prefix_append _ _⟩
  | inside others blocks played _ hshape h hplayed =>
    refine ⟨_, _, h.toFlowing, ?_⟩
    unfold Link.audible
    rw [if_pos hshape, ← hplayed]
    exact List.prefix_append _ _

/-- A delivery of one of the first 2^32 links is taken, or something goes wrong. -/
theorem LinkState.take {delivery : Delivery}
    (h : LinkState source first link begun rows (delivery :: deliveries) m) (J : Jvm)
    (hroom : begun < 4294967296) (hfirst : begun = 0 → link.info = first) :
    (∃ m', delivery.take J m = (.cont, m') ∧
        LinkState source first link begun rows deliveries m') ∨
      Disturbed (rows ++ link.audible first) (delivery.take J m).2 := by
  cases h with
  | before hall h =>
    obtain ⟨rfl, rfl⟩ := List.cons.inj hall
    rcases h.takeStreamInfo J hroom hfirst (List.prefix_append _ (link.audible first)) with
      ⟨hshape, hinside⟩ | hdisturbed
    · exact .inl ⟨_, rfl, .inside link.others link.blocks rows rfl hshape hinside rfl⟩
    · exact .inr hdisturbed
  | inside others blocks played hrest hshape h hplayed =>
    have haudible : link.audible first = rowsOf link.blocks := if_pos hshape
    cases others with
    | succ others =>
      obtain ⟨rfl, rfl⟩ := List.cons.inj hrest
      exact .inl ⟨_, rfl, .inside others blocks played rfl hshape (h.record ⟨rfl, rfl, rfl, rfl⟩)
        hplayed⟩
    | zero =>
      cases blocks with
      | nil => cases hrest
      | cons frame blocks =>
        obtain ⟨rfl, rfl⟩ := List.cons.inj hrest
        rw [rowsOf_cons, ← List.append_assoc] at hplayed
        have hlimit : played ++ frame.rows <+: rows ++ link.audible first := by
          rw [haudible, ← hplayed]
          exact List.prefix_append _ _
        rcases h.takePcm J frame hlimit with ⟨m', htake, hinside⟩ | hdisturbed
        · exact .inl ⟨m', htake, .inside 0 blocks _ rfl hshape hinside hplayed⟩
        · exact .inr hdisturbed

theorem LinkState.follows (J : Jvm) (hroom : begun < 4294967296)
    (hfirst : begun = 0 → link.info = first) :
    Follows J source (LinkState source first link begun rows)
      (Disturbed (rows ++ link.audible first)) := by
  refine ⟨fun h => ?_, fun h => h.take J hroom hfirst, fun h status => ?_, fun h hstep => ?_,
    fun h callback calls => h.handle J callback calls⟩
  · obtain ⟨_, _, hflowing, -⟩ := h.flowing
    exact ⟨hflowing.unpending, hflowing.source_eq⟩
  · obtain ⟨_, _, hflowing, hlimit⟩ := h.flowing
    exact hflowing.reportError status hlimit
  · obtain ⟨_, _, hflowing, hlimit⟩ := h.flowing
    exact hflowing.transport hstep hlimit

/-- When all deliveries were taken, the link has been played. -/
theorem LinkState.played (h : LinkState source first link begun rows [] m) :
    link.info.sameShape first ∧
      FlowingIn source first link.info (begun + 1) rows.length (rows ++ rowsOf link.blocks) m := by
  cases h with
  | before hall => cases hall
  | inside others blocks played hrest hshape h hplayed =>
    obtain ⟨-, hblocks⟩ := List.append_eq_nil_iff.mp hrest.symm
    rw [List.map_eq_nil_iff.mp hblocks, rowsOf_nil, List.append_nil] at hplayed
    rw [← hplayed]
    exact ⟨hshape, h⟩

/-! ## The end of a link -/

/-- The three ways in which a call on a link can fail. -/
abbrev FailedCall (r : Bool × Stream D × Machine) : Prop :=
  (!r.1 || r.2.2.context.sawError || r.2.2.exceptionCheck) = true

/-- One link is played, or the call fails. -/
theorem Flowing.callLink (h : Flowing source first begun rows m) (hroom : begun < 4294967296)
    (hfirst : begun = 0 → link.info = first) {s s' : Stream D}
    (hoffers : Offers J source (F.processUntilEndOfLink s.decoder) s.transportCalls
      link.deliveries s')
    (hstate : F.getState s'.decoder = .endOfLink ∨ F.getState s'.decoder = .endOfStream) :
    (∃ m', F.call J .processUntilEndOfLink (F.processUntilEndOfLink s.decoder) s.transportCalls m =
        (true, s', m') ∧ link.info.sameShape first ∧
      FlowingIn source first link.info (begun + 1) rows.length (rows ++ rowsOf link.blocks) m') ∨
    (FailedCall (F.call J .processUntilEndOfLink (F.processUntilEndOfLink s.decoder)
        s.transportCalls m) ∧
      Spoilt (rows ++ link.audible first) (F.call J .processUntilEndOfLink
        (F.processUntilEndOfLink s.decoder) s.transportCalls m).2.2.history) := by
  have hrun := hoffers.run (LinkState.follows J hroom hfirst) (.before rfl h)
  unfold LibFlac.call
  dsimp only
  rcases hrun with ⟨m', hrun, hplayed⟩ | ⟨hfalse, rest, hgave⟩ | hdisturbed
  · obtain ⟨hshape, hinside⟩ := hplayed.played
    rw [hrun]
    refine .inl ⟨_, rfl, hshape, hinside.record ⟨?_, rfl, rfl, rfl⟩⟩
    rcases hstate with hstate | hstate <;> simp [Event.isFailure, hstate]
  · generalize (F.processUntilEndOfLink s.decoder).run (handle J) (m, s.transportCalls) = r
      at hfalse hgave
    obtain ⟨_, _, hflowing, hlimit⟩ := hgave.flowing
    refine .inr ⟨?_, ?_⟩
    · show (!r.1.1 || _ || _) = true
      rw [hfalse]
      rfl
    · rw [hfalse]
      exact hflowing.told.broken (by simp [Event.isFailure])
        (by simp [Event.isPcm, Event.isComplete]) hlimit
  · generalize (F.processUntilEndOfLink s.decoder).run (handle J) (m, s.transportCalls) = r
      at hdisturbed
    refine .inr ⟨?_, hdisturbed.spoilt.append (by simp [Event.isPcm, Event.isComplete])⟩
    show (!r.1.1 || r.2.1.context.sawError || r.2.1.exceptionCheck) = true
    rcases hdisturbed.failing with hpending | herror
    · obtain ⟨exception, hexception⟩ := Option.ne_none_iff_exists'.mp hpending
      simp [exceptionCheck, hexception]
    · simp [herror]

theorem FlowingIn.validateLink
    (h : FlowingIn source first link.info begun rows.length (rows ++ rowsOf link.blocks) m) :
    validateChainedLinkSampleCount m = if link.Counts then (true, m) else
      (false, m.throwDecode
        (chainedLinkMessage m.context.emittedForLink m.context.currentLinkTotalSamples)) := by
  have hemitted : m.context.emittedForLink = (rowsOf link.blocks).length := by
    unfold DecodeContext.emittedForLink
    rw [h.emitted, h.start, List.length_append, Nat.add_sub_cancel_left]
  exact link.validate h.total hemitted

/-- `finish_link` leaves the decode in front of the next link, or stops it. -/
theorem FlowingIn.finishLink {start : ℕ}
    (h : FlowingIn source first link.info begun start rows m) {s : Stream D}
    {errors : List ErrorStatus} {verified : Bool} {d : D}
    (hfinish : F.finishLink s.decoder = (errors, verified, d)) :
    ∃ m', F.callFinishLink s m = (verified, ⟨d, s.transportCalls⟩, m') ∧
      ((m'.context.sawError = true ∧ errors ≠ [] ∧ Spoilt rows m'.history) ∨
        (m'.context.sawError = false ∧ errors = [] ∧
          if verified then Flowing source first begun rows m' else Spoilt rows m'.history)) := by
  unfold LibFlac.callFinishLink
  rw [hfinish]
  dsimp only
  refine ⟨_, rfl, ?_⟩
  cases errors with
  | nil =>
    refine .inr ⟨h.error, rfl, ?_⟩
    cases verified with
    | true => exact h.toFlowing.record ⟨rfl, rfl, rfl, rfl⟩
    | false =>
      exact h.told.broken (by simp [Event.isFailure]) (by simp [Event.isPcm, Event.isComplete])
        (List.prefix_refl _)
  | cons status errors =>
    have hfirst := h.toFlowing.reportError status (List.prefix_refl rows)
    have hsaw : (decodeErrorCallback status
        (m.record (.errorCallback status))).context.sawError = true := rfl
    -- further reports change nothing
    have hall : ∀ (errors : List ErrorStatus) (m : Machine), Disturbed rows m →
        m.context.sawError = true →
        let m' := errors.foldl
          (fun m status => decodeErrorCallback status (m.record (.errorCallback status))) m
        Disturbed rows m' ∧ m'.context.sawError = true := by
      intro errors
      induction errors with
      | nil => exact fun m hdisturbed hsaw => ⟨hdisturbed, hsaw⟩
      | cons status errors ih =>
        intro m hdisturbed _
        exact ih _ (hdisturbed.reportError status) rfl
    obtain ⟨hdisturbed, hsaw'⟩ := hall errors _ hfirst hsaw
    exact .inl ⟨hsaw', by simp, hdisturbed.spoilt.append (by simp [Event.isPcm, Event.isComplete])⟩

/-! ## The loop over the links -/

/-- How the loop over these links ends. -/
structure ChainPlayed (F : LibFlac D) (source : Source) (first : StreamInfo) (begun : ℕ)
    (rows : List (List Sample)) (links : List Link) (finishes success : Bool) (s : Stream D)
    (m : Machine) : Prop where
  passed : success = true → (playLinks first links).2 = true ∧ F.finish s.decoder = finishes ∧
    Flowing source first (begun + links.length) (rows ++ rowsOf (links.flatMap Link.blocks)) m
  failed : success = false → Spoilt (rows ++ (playLinks first links).1) m.history

theorem ChainPlayed.of_spoilt {links : List Link} {finishes : Bool} {s : Stream D}
    (h : Spoilt (rows ++ link.audible first) m.history) :
    ChainPlayed F source first begun rows (link :: links) finishes false s m := by
  refine ⟨by simp, fun _ => h.mono ?_⟩
  rw [List.prefix_append_right_inj]
  exact link.audible_prefix first links

variable {At : List Link → Stream D → Prop} {finishes : Bool}

/-- The loop plays the links up to the first that fails. -/
theorem Flowing.processLinks (hreads : F.OffersChain J source finishes At) {links : List Link}
    {room : ℕ} (hwithin : EndsWithin room first links) (hroom : begun + room = 4294967296)
    {fuel : ℕ} (hfuel : links.length ≤ fuel) (hlinks : links ≠ [])
    (h : Flowing source first begun rows m)
    (hfirst : begun = 0 → ∀ link ∈ links.head?, link.info = first) {s : Stream D}
    (hat : At links s) :
    ∃ success s' m', processLinks F J fuel s m = (some success, s', m') ∧
      ChainPlayed F source first begun rows links finishes success s' m' := by
  induction links generalizing begun room rows m s fuel with
  | nil => exact absurd rfl hlinks
  | cons link links ih =>
    obtain ⟨fuel, rfl⟩ : ∃ n, fuel = n + 1 := ⟨fuel - 1, by rw [List.length_cons] at hfuel; omega⟩
    rw [List.length_cons, Nat.add_le_add_iff_right] at hfuel
    obtain ⟨rest, rfl, hrest⟩ := hwithin.cons
    have hinfo : begun = 0 → link.info = first := fun hbegun => hfirst hbegun link rfl
    obtain ⟨s', hoffers, hstate⟩ : ∃ s', Offers J source (F.processUntilEndOfLink s.decoder)
        s.transportCalls link.deliveries s' ∧
        ((links = [] ∧ F.getState s'.decoder = .endOfStream ∧ F.finish s'.decoder = finishes) ∨
          (links ≠ [] ∧ F.getState s'.decoder = .endOfLink ∧ ∃ errors d',
            F.finishLink s'.decoder = (errors, link.verified, d') ∧
              (errors = [] → At links ⟨d', s'.transportCalls⟩))) := by
      cases links with
      | nil =>
        obtain ⟨s', hoffers, hstate, hfinish⟩ := hreads.last link s hat
        exact ⟨s', hoffers, .inl ⟨rfl, hstate, hfinish⟩⟩
      | cons next links =>
        obtain ⟨s', hoffers, hstate, hnext⟩ := hreads.inner link next links s hat
        exact ⟨s', hoffers, .inr ⟨by simp, hstate, hnext⟩⟩
    have hends : F.getState s'.decoder = .endOfLink ∨ F.getState s'.decoder = .endOfStream := by
      rcases hstate with ⟨-, hstate, -⟩ | ⟨-, hstate, -⟩
      · exact .inr hstate
      · exact .inl hstate
    unfold Decode.processLinks
    dsimp only
    rcases h.callLink (by omega) hinfo hoffers hends with
      ⟨m₁, hcall, hshape, hinside⟩ | ⟨hfails, hspoilt⟩
    swap
    · rw [if_pos hfails]
      exact ⟨_, _, _, rfl, .of_spoilt hspoilt⟩
    have haudible : link.audible first = rowsOf link.blocks := if_pos hshape
    rw [hcall]
    dsimp only
    rw [if_neg (by simp [hinside.error, exceptionCheck, hinside.unpending]), hinside.validateLink]
    by_cases hcounts : link.Counts
    swap
    · -- both states check the count
      rw [if_neg hcounts]
      have hspoilt : Spoilt (rows ++ link.audible first) (m₁.throwDecode
          (chainedLinkMessage m₁.context.emittedForLink
            m₁.context.currentLinkTotalSamples)).history := by
        rw [haudible]
        exact hinside.told.broken (by simp [Event.isFailure])
          (by simp [Event.isPcm, Event.isComplete]) (List.prefix_refl _)
      rcases hends with hstate | hstate
      · rw [hstate]
        exact ⟨_, _, _, rfl, .of_spoilt hspoilt⟩
      · rw [hstate]
        exact ⟨_, _, _, rfl, .of_spoilt hspoilt⟩
    rw [if_pos hcounts]
    have hplay : playLinks first (link :: links) = if links.isEmpty then (rowsOf link.blocks, true)
        else if link.verified then
          (rowsOf link.blocks ++ (playLinks first links).1, (playLinks first links).2)
        else (rowsOf link.blocks, false) := by
      conv_lhs => unfold playLinks
      rw [if_neg (not_not.mpr hshape), if_neg (not_not.mpr hcounts)]
    rcases hstate with ⟨rfl, hstate, hfinish⟩ | ⟨hmore, hstate, errors, d', hfinish, hnext⟩
    · rw [hstate]
      refine ⟨_, _, _, rfl, fun _ => ⟨?_, hfinish, ?_⟩, by simp⟩
      · rw [hplay]
        rfl
      · show Flowing source first (begun + 1) (rows ++ rowsOf (link.blocks ++ [])) m₁
        rw [List.append_nil]
        exact hinside.toFlowing
    rw [hstate]
    dsimp only
    rw [if_neg (by simp)]
    obtain ⟨m₂, hfinished, hafter⟩ := hinside.finishLink hfinish
    rw [hfinished]
    dsimp only
    rcases hafter with ⟨herror, -, hspoilt⟩ | ⟨herror, hnone, hafter⟩
    · rw [if_pos herror]
      rw [← haudible] at hspoilt
      exact ⟨_, _, _, rfl, .of_spoilt hspoilt⟩
    rw [if_neg (by simp [herror])]
    by_cases hverified : link.verified = true
    swap
    · rw [if_neg hverified, ← haudible] at hafter
      rw [if_pos (by simpa using hverified)]
      exact ⟨_, _, _, rfl, .of_spoilt hafter⟩
    rw [if_pos hverified] at hafter
    rw [if_neg (by simp [hverified])]
    obtain ⟨success, s'', m', hloop, hplayed⟩ := ih (hrest ⟨hshape, hcounts, hverified⟩)
      (by omega) hfuel hmore hafter (fun hbegun => absurd hbegun (Nat.succ_ne_zero begun))
      (hnext hnone)
    rw [if_neg (by simp [hmore]), if_pos hverified] at hplay
    refine ⟨success, s'', m', hloop, fun hsuccess => ?_, fun hfailure => ?_⟩
    · obtain ⟨hpasses, hfinish', hflowing⟩ := hplayed.passed hsuccess
      rw [hplay]
      refine ⟨hpasses, hfinish', ?_⟩
      rw [Nat.add_assoc, Nat.add_comm 1, List.append_assoc, ← rowsOf_append] at hflowing
      exact hflowing
    · have hspoilt := hplayed.failed hfailure
      rw [hplay]
      rw [List.append_assoc] at hspoilt
      exact hspoilt

end

/-! ## The end of the decode -/

/-- Nothing has gone wrong but what `onComplete` itself raises. -/
def Undisturbed (events : List Event) : Prop :=
  ∀ e ∈ events, e.isFailure = true → e.isComplete = true

/-- What is promised of a chained decode. -/
structure AllOrNothing (first : StreamInfo) (links : List Link) (finishes : Bool)
    (decoded : Outcome) : Prop where
  finished : decoded.finished = true
  /-- It completes exactly when nothing has gone wrong and no rule is broken. -/
  completes : (∃ e ∈ decoded.machine.history, e.isComplete = true) ↔
    Undisturbed decoded.machine.history ∧
      (∀ link ∈ links, link.info.sameShape first ∧ link.Counts) ∧
      (∀ link ∈ links.dropLast, link.verified = true) ∧ finishes = true
  /-- Then the consumer has seen STREAMINFO once, and the audio of all links. -/
  whole : (∃ e ∈ decoded.machine.history, e.isComplete = true) →
    decoded.machine.history.filter Event.isStreamInfo =
        [.java (.onStreamInfo first.chainShape) .returned] ∧
      HandsOver decoded.machine.history (rowsOf (links.flatMap Link.blocks))
  /-- In any case it was given no PCM from behind the first link that fails. -/
  upTo : givenPcm decoded.machine.history <+: (playLinks first links).1.flatten
  /-- Nor after a failure of any kind. -/
  stops : StopsAtFailure decoded.machine.history

section
variable {F : LibFlac D} {J : Jvm} {source : Source} {first : StreamInfo} {links : List Link}
  {finishes checkMd5 : Bool} {m : Machine}

theorem AllOrNothing.of_spoilt (h : Spoilt (playLinks first links).1 m.history) :
    AllOrNothing first links finishes ⟨true, m⟩ := by
  have hnever : ¬ ∃ e ∈ m.history, e.isComplete = true := by
    rintro ⟨e, he, hcomplete⟩
    rw [h.incomplete e he] at hcomplete
    cases hcomplete
  refine ⟨rfl, ⟨fun hcomplete => absurd hcomplete hnever, ?_⟩,
    fun hcomplete => absurd hcomplete hnever, h.given, h.stops⟩
  rintro ⟨hundisturbed, -⟩
  obtain ⟨e, he, hfailure⟩ := h.failure
  exact ⟨e, he, hundisturbed e he hfailure⟩

/-- The decode completes when all links have passed. -/
theorem AllOrNothing.of_told {begun : ℕ} (hbegun : begun ≠ 0)
    (h : Told first begun (rowsOf (links.flatMap Link.blocks)) m.history)
    (hpasses : (playLinks first links).2 = true) {outcome : JavaOutcome} {m' : Machine}
    (hhistory : m'.history = m.history ++ [.java .onComplete outcome]) :
    AllOrNothing first links true ⟨true, m'⟩ := by
  obtain ⟨hlinks, hverified⟩ := playLinks_passes.mp hpasses
  have hundisturbed : Undisturbed m'.history := by
    intro e he hfailure
    rw [hhistory] at he
    rcases List.mem_append.mp he with he | he
    · rw [h.harmless e he] at hfailure
      cases hfailure
    · rw [List.mem_singleton.mp he]
      rfl
  have hcomplete : ∃ e ∈ m'.history, e.isComplete = true :=
    ⟨.java .onComplete outcome, by simp [hhistory], rfl⟩
  refine ⟨rfl, ⟨fun _ => ⟨hundisturbed, hlinks, hverified, rfl⟩, fun _ => hcomplete⟩,
    fun _ => ⟨?_, ?_⟩, ?_, ?_⟩
  · rw [hhistory, List.filter_append, h.shown, if_neg hbegun]
    rfl
  · rw [hhistory]
    exact h.heard.quiet (by simp [Event.chunk?])
  · rw [hhistory, givenPcm_append, h.given, playLinks_rows hpasses]
    show (rowsOf (links.flatMap Link.blocks)).flatten ++ [] <+: _
    rw [List.append_nil]
  · rw [hhistory]
    exact .of_harmless h.harmless (List.pairwise_singleton _ _)

/-- A loop that was not successful is reported, and the decode does not complete. -/
theorem finishDecode_unsuccessful (F : LibFlac D) (J : Jvm) (what : String) (checkMd5 : Bool)
    (s : Stream D) (m : Machine) :
    Adds (fun e => e.isPcm = false ∧ e.isComplete = false) m
      (finishDecode F J what checkMd5 false s m) := by
  unfold finishDecode
  dsimp only
  rw [if_neg (by simp)]
  exact .trans (.single rfl ⟨rfl, rfl⟩) (reportFailure_adds (fun _ => ⟨rfl, rfl⟩) _ _ _ _ _ _)

/-- What the end of the decode makes of the loop. -/
theorem ChainPlayed.finishDecode {begun : ℕ} {success : Bool} {s : Stream D}
    (h : ChainPlayed F source first begun [] links finishes success s m) (hlinks : links ≠ [])
    (J : Jvm) (what : String) (checkMd5 : Bool) :
    AllOrNothing first links finishes ⟨true, finishDecode F J what checkMd5 success s m⟩ := by
  cases success with
  | false =>
    have hspoilt := h.failed rfl
    rw [List.nil_append] at hspoilt
    exact .of_spoilt (hspoilt.adds (finishDecode_unsuccessful F J what checkMd5 s m))
  | true =>
    obtain ⟨hpasses, hfinish, hflowing⟩ := h.passed rfl
    rw [List.nil_append] at hflowing
    have hnone : (F.callFinish s m).2.pending = none := hflowing.unpending
    have hbegun : begun + links.length ≠ 0 := by
      have hlength := List.length_pos_of_ne_nil hlinks
      omega
    unfold Decode.finishDecode
    dsimp only
    have hfinished : (F.callFinish s m).1 = finishes := hfinish
    rw [hfinished]
    cases finishes with
    | true =>
      have hmd5 : (F.callFinish s m).2.context.chainedLinkMd5Failed = false := hflowing.md5
      rw [reportFailure_none (by rw [hmd5]; rfl), if_pos (by simp [exceptionCheck, hnone])]
      obtain ⟨outcome, hhistory⟩ := callJava_history J .onComplete (F.callFinish s m).2
      have hsilent : Event.Silent (.returned .finish (F.finish s.decoder) (F.getState s.decoder)
          m.pending) := ⟨by rw [hfinish]; rfl, rfl, rfl, rfl⟩
      exact .of_told hbegun (hflowing.told.silent (by simpa using hsilent)) hpasses hhistory
    | false =>
      rw [if_neg (by simp)]
      have hspoilt : Spoilt (playLinks first links).1 (F.callFinish s m).2.history := by
        rw [playLinks_rows hpasses]
        refine hflowing.told.broken ?_ (by simp [Event.isPcm, Event.isComplete])
          (List.prefix_refl _)
        exact ⟨_, List.mem_singleton.mpr rfl, by rw [hfinish]; rfl⟩
      exact .of_spoilt (hspoilt.adds (reportFailure_adds (fun _ => ⟨rfl, rfl⟩) _ _ _ _ _ _))

/-! ## Whole decodes -/

/-- An operation that was refused before libFLAC was called. -/
theorem AllOrNothing.of_rejected (h : Rejected .start m) :
    AllOrNothing first links finishes ⟨true, m⟩ := by
  obtain ⟨extra, hhistory, hinternal, hfailure⟩ := h.explained
  have hhistory : m.history = extra := by simpa [Machine.start] using hhistory
  have hnoPcm : ∀ e ∈ extra, e.isPcm = false := fun e he =>
    Event.isPcm_of_isInternal (hinternal e he)
  refine .of_spoilt ⟨?_, fun e he => ?_, ?_, ?_⟩
  · rwa [hhistory]
  · exact (Event.Ordinary.of_isInternal (hinternal e (hhistory ▸ he))).2.1
  · rw [hhistory]
    exact .of_noPcm hnoPcm
  · rw [hhistory, givenPcm_eq_nil hnoPcm]
    exact List.nil_prefix

/-- The decoder has been initialised. -/
theorem Flowing.of_opened (first : StreamInfo) (hadds : AddsInternal .start m)
    (hnone : m.pending = none)
    (hcontext : m.context = (DecodeRequest.whole containerOgg checkMd5 true).context source)
    (hcalm : m.Calm) : Flowing source first 0 [] m := by
  obtain ⟨extra, hhistory, hinternal⟩ := hadds
  have hhistory : m.history = extra := by simpa [Machine.start] using hhistory
  have hnoPcm : ∀ e ∈ extra, e.isPcm = false := fun e he =>
    Event.isPcm_of_isInternal (hinternal e he)
  refine ⟨hnone, by rw [hcontext]; rfl, by rw [hcontext]; rfl, by rw [hcontext]; rfl,
    by rw [hcontext]; rfl, fun hbegun => absurd hbegun (lt_irrefl 0), by rw [hcontext]; rfl, ?_⟩
  refine ⟨hcalm hnone, fun e he => ?_, ?_, ?_, ?_⟩
  · exact (Event.Ordinary.of_isInternal (hinternal e (hhistory ▸ he))).2.1
  · rw [hhistory]
    refine List.filter_eq_nil_iff.mpr fun e he => ?_
    rw [Event.isStreamInfo_eq_false (Event.isConsumer_of_isInternal (hinternal e he))]
    simp
  · rw [hhistory]
    exact .nil fun e he => Event.chunk?_of_isPcm (hnoPcm e he)
  · rw [hhistory, givenPcm_eq_nil hnoPcm]
    rfl

/-- If the channel tells its position, it is the one given. -/
def WholeSource.Answers (J : Jvm) : WholeSource → Prop
  | file => True
  | inputStream => True
  | channel position =>
    ∀ value, J.transport [] .position = .ok value → value.value = position

theorem WholeSource.opens {input : WholeSource} (hanswers : input.Answers J)
    {calls : List TransportCall} (hopens : input.transport.Opens J source calls) :
    source = input.fields ∧ calls = input.calls := by
  cases input with
  | file => exact hopens
  | inputStream => exact hopens
  | channel position =>
    obtain ⟨hcalls, position', bytes, hanswer, hsource⟩ := hopens
    obtain rfl : position' = position := hanswers _ hanswer
    exact ⟨hsource, hcalls⟩

theorem WholeSource.decode_oneShot (F : LibFlac D) (J : Jvm) (fuel : ℕ) (container : ℤ)
    (checkMd5 decodeChainedOgg : Bool) (input : WholeSource) :
    OneShot F J fuel input.transport (.whole container checkMd5 decodeChainedOgg)
      (input.decode F J fuel container checkMd5 decodeChainedOgg) := by
  cases input with
  | file => exact decodeFileInternal_oneShot F J fuel true true _
  | inputStream => exact decodeStreamInternal_oneShot F J fuel true true _ _ _
  | channel _ => exact decodeChannelInternal_oneShot F J fuel true true _

variable {At : List Link → Stream D → Prop}

/-- A chained decode is all or nothing, whatever fails in it, if its chain ends or breaks a rule
within the 2^32 links that can be counted. -/
theorem decodeChained_allOrNothing (input : WholeSource) (hanswers : input.Answers J)
    (hreads : F.OffersChain J input.fields finishes At) {link : Link} {links : List Link}
    (hopens : ∀ decoder, F.Configures input.transport (.whole containerOgg checkMd5 true) decoder →
      At (link :: links) ⟨decoder, input.calls⟩)
    (hends : EndsWithin 4294967296 link.info (link :: links)) {fuel : ℕ}
    (hfuel : links.length < fuel) :
    AllOrNothing link.info (link :: links) finishes
      (input.decode F J fuel containerOgg checkMd5 true) := by
  have honce := input.decode_oneShot F J fuel containerOgg checkMd5 true
  generalize input.decode F J fuel containerOgg checkMd5 true = decoded at honce
  cases honce with
  | rejected m h => exact .of_rejected h
  | initialised source s m hadds hnone hcontext hrequest hcalm hopened hconfigures =>
    obtain ⟨rfl, hcalls⟩ := WholeSource.opens hanswers hopened
    have hat : At (link :: links) s := by
      have hat := hopens s.decoder hconfigures
      rw [← hcalls] at hat
      exact hat
    have hflowing : Flowing input.fields link.info 0 [] m := .of_opened _ hadds hnone hcontext hcalm
    obtain ⟨success, s', m', hloop, hplayed⟩ := hflowing.processLinks hreads hends rfl
      (show (link :: links).length ≤ fuel from hfuel) (List.cons_ne_nil _ _)
      (fun _ l hl => congrArg Link.info (Option.some.inj hl).symm) hat
    have hprocess : processDecodeStream F J fuel s m = (some success, s', m') := by
      unfold processDecodeStream
      rw [if_neg (by simp [hflowing.unlimited]), if_pos hflowing.chained]
      exact hloop
    show AllOrNothing link.info (link :: links) finishes (processAndFinish F J fuel _ checkMd5 s m)
    unfold processAndFinish
    rw [hprocess]
    exact hplayed.finishDecode (List.cons_ne_nil _ _) J _ checkMd5

end

/-! ## Scripted chains -/

/-- What a quiet chain hands over, it offers. -/
theorem LibFlac.Chains.offers {F : LibFlac D} {J : Jvm} {source : Source} {finishes : Bool}
    {At : List Link → Stream D → Prop} (h : F.Chains J source At)
    (hfinish : ∀ d, F.finish d = finishes) : F.OffersChain J source finishes At := by
  refine ⟨fun link next links s hat => ?_, fun link s hat => ?_⟩
  · obtain ⟨s', d', hdelivers, hstate, hlink, hat'⟩ := h.inner link next links s hat
    exact ⟨s', hdelivers.offers, hstate, [], d', hlink, fun _ => hat'⟩
  · obtain ⟨s', hdelivers, hstate⟩ := h.last link s hat
    exact ⟨s', hdelivers.offers, hstate, hfinish s'.decoder⟩

theorem scripted_opens {scripts : List Script} {transport : Transport} {checkMd5 : Bool}
    {decoder : Scripted}
    (h : (scripted scripts).Configures transport (.whole containerOgg checkMd5 true) decoder) :
    decoder = ⟨scripts, .other⟩ := by
  obtain ⟨d₀, d₁, d₂, hnew, ⟨-, hchained⟩, hmd5, hinit⟩ := h.configures
  cases hnew
  cases hchained
  have hd₂ : d₂ = ⟨scripts, .other⟩ := by
    cases checkMd5 with
    | false => exact hmd5
    | true => exact (Option.some.inj hmd5).symm
  exact (Option.some.inj hinit).symm.trans hd₂

theorem decodeChained_allOrNothing_twoLinks :
    AllOrNothing (monoInfo 2) twoLinks true (WholeSource.inputStream.decode
      (scripted (linkScripts twoLinks)) quietJvm 2 containerOgg true true) := by
  have hreads : (scripted (linkScripts twoLinks)).OffersChain quietJvm
      WholeSource.inputStream.fields true _ := (scripted_chains _ _ _).offers fun _ => rfl
  have hverified : ∀ link ∈ twoLinks, link.verified = true := by decide
  have hends : EndsWithin 4294967296 (monoInfo 2) twoLinks := .inl (by decide)
  exact decodeChained_allOrNothing .inputStream trivial hreads
    (fun decoder hconfigures => ⟨congrArg Scripted.scripts (scripted_opens hconfigures), hverified⟩)
    hends (by decide)

/-! ## A chain that is too long -/

/-- STREAMINFO is taken in a quiet JVM, unless its shape is refused. -/
theorem Jvm.Quiet.takeStreamInfo {J : Jvm} (hquiet : J.Quiet) {m : Machine}
    (hnone : m.pending = none) (hchained : m.context.decodeChainedOgg = true) {info : StreamInfo}
    (hshape : m.context.chainedLinkCount = 0 ∨ info.sameShape m.context.streamInfo) :
    (decodeMetadataCallback J (.streamInfo info) m).pending = none ∧
      (decodeMetadataCallback J (.streamInfo info) m).context.sawError = m.context.sawError ∧
      (decodeMetadataCallback J (.streamInfo info) m).context.chainedLinkMd5Failed =
        m.context.chainedLinkMd5Failed ∧
      (decodeMetadataCallback J (.streamInfo info) m).context.currentLinkTotalSamples =
        info.totalSamples := by
  unfold decodeMetadataCallback
  dsimp only
  rw [if_pos hchained]
  by_cases hcount : 0 < m.context.chainedLinkCount
  · rw [if_pos hcount, if_pos (hshape.resolve_left (Nat.ne_of_gt hcount))]
    exact ⟨hnone, rfl, rfl, rfl⟩
  · rw [if_neg hcount]
    obtain ⟨events, hnone', hcontext, -⟩ := hquiet.captureStreamInfo
      (m := m.withContext (m.context.beginLink info 1)) hnone info info.chainShape
    rw [hcontext]
    exact ⟨hnone', rfl, rfl, rfl⟩

/-- A link of no audio. -/
def emptyLink (channels : ℕ) : Link := ⟨{ monoInfo 0 with channels := channels }, 0, [], true⟩

/-- Many links of one channel, and a last one of two. -/
def mixedChain (count : ℕ) : List Link := List.replicate count (emptyLink 1) ++ [emptyLink 2]

section
variable {F : LibFlac D} {J : Jvm} {source : Source} {begun : ℕ} {m : Machine}
  {At : List Link → Stream D → Prop}

/-- One of the first 2^32 empty links passes. -/
theorem Flowing.passEmptyLink (hquiet : J.Quiet) (hreads : F.Chains J source At)
    (h : Flowing source (emptyLink 1).info begun [] m) (hroom : begun < 4294967296)
    {next : Link} {links : List Link} {s : Stream D} (hat : At (emptyLink 1 :: next :: links) s)
    (fuel : ℕ) :
    ∃ s' m', Decode.processLinks F J (fuel + 1) s m = Decode.processLinks F J fuel s' m' ∧
      Flowing source (emptyLink 1).info (begun + 1) [] m' ∧ At (next :: links) s' := by
  obtain ⟨s', d', hdelivers, hstate, hfinish, hat'⟩ := hreads.inner _ _ _ _ hat
  have hshape : m.context.chainedLinkCount = 0 ∨
      (emptyLink 1).info.sameShape m.context.streamInfo := by
    rcases Nat.eq_zero_or_pos begun with rfl | hbegun
    · exact .inl h.count
    · rw [h.shape hbegun]
      exact .inr ⟨rfl, rfl, rfl⟩
  obtain ⟨hnone, herror, -, -⟩ := hquiet.takeStreamInfo
    (m := m.record (.metadataCallback (.streamInfo (emptyLink 1).info))) h.unpending h.chained
    hshape
  rcases h.takeStreamInfo J hroom (fun _ => rfl) (List.prefix_refl []) with
    ⟨-, hinside⟩ | hdisturbed
  swap
  · rcases hdisturbed.failing with hpending | hsaw
    · exact absurd hnone hpending
    · exact absurd (hsaw.symm.trans (herror.trans h.error)) (by simp)
  have hcall := hdelivers.call (F := F) h.unpending h.source_eq
    (.cons m _ _ _ _ rfl hnone (.nil _)) .processUntilEndOfLink
  have hsilent : Event.Silent
      (.returned .processUntilEndOfLink true (F.getState s'.decoder) none) :=
    ⟨by simp [Event.isFailure, hstate], rfl, rfl, rfl⟩
  have hplayed := hinside.record hsilent
  generalize hm₁ : Machine.record _
    (.returned .processUntilEndOfLink true (F.getState s'.decoder) none) = m₁ at hcall hplayed
  have hcounts : (emptyLink 1).Counts := .inl rfl
  have hvalidate := FlowingIn.validateLink hplayed
  rw [if_pos hcounts] at hvalidate
  obtain ⟨m₂, hfinished, hafter⟩ := hplayed.finishLink hfinish
  refine ⟨⟨d', s'.transportCalls⟩, m₂, ?_, ?_, hat'⟩
  · conv_lhs => unfold Decode.processLinks
    dsimp only
    rw [hcall]
    dsimp only
    rw [if_neg (by simp [hplayed.error, exceptionCheck, hplayed.unpending]), hstate, hvalidate]
    dsimp only
    rw [if_neg (by simp), hfinished]
    dsimp only
    rcases hafter with ⟨-, herrors, -⟩ | ⟨herror, -, -⟩
    · exact absurd rfl herrors
    · rw [if_neg (by simp [herror])]
      rfl
  · rcases hafter with ⟨-, herrors, -⟩ | ⟨-, -, hflowing⟩
    · exact absurd rfl herrors
    · exact hflowing

theorem Flowing.passEmptyLinks (hquiet : J.Quiet) (hreads : F.Chains J source At) {count : ℕ}
    (h : Flowing source (emptyLink 1).info begun [] m) (hroom : begun + count ≤ 4294967296)
    {s : Stream D} (hat : At (mixedChain count) s) (fuel : ℕ) :
    ∃ s' m', Decode.processLinks F J (fuel + count) s m = Decode.processLinks F J fuel s' m' ∧
      Flowing source (emptyLink 1).info (begun + count) [] m' ∧ At [emptyLink 2] s' := by
  induction count generalizing begun m s with
  | zero => exact ⟨s, m, rfl, h, hat⟩
  | succ count ih =>
    obtain ⟨next, links, hrest⟩ : ∃ next links, mixedChain count = next :: links :=
      List.exists_cons_of_ne_nil (by simp [mixedChain])
    have hall : mixedChain (count + 1) = emptyLink 1 :: next :: links := by
      rw [← hrest]
      rfl
    rw [hall] at hat
    obtain ⟨s₁, m₁, hloop, hflowing, hat₁⟩ :=
      h.passEmptyLink hquiet hreads (by omega) hat (fuel + count)
    rw [← hrest] at hat₁
    obtain ⟨s₂, m₂, hloop', hflowing', hat₂⟩ := ih hflowing (by omega) hat₁
    rw [Nat.add_right_comm, Nat.add_assoc] at hflowing'
    exact ⟨s₂, m₂, hloop.trans hloop', hflowing', hat₂⟩

/-- When 2^32 links have passed, the next one is taken for the first again. -/
theorem Flowing.completesMixed (hquiet : J.Quiet) (hreads : F.Chains J source At)
    (hfinish : ∀ d, F.finish d = true) (h : Flowing source (emptyLink 1).info 0 [] m) {count : ℕ}
    (hcount : count = 4294967296) {s : Stream D} (hat : At (mixedChain count) s) (what : String)
    (checkMd5 : Bool) :
    ∃ e ∈ (processAndFinish F J (1 + count) what checkMd5 s m).machine.history,
      e.isComplete = true := by
  obtain ⟨s₁, m₁, hloop, hflowing, hat₁⟩ :=
    h.passEmptyLinks hquiet hreads (by omega) hat 1
  obtain ⟨s₂, hdelivers, hstate⟩ := hreads.last _ _ hat₁
  have hwrapped : m₁.context.chainedLinkCount = 0 := by
    rw [hflowing.count, hcount]
  obtain ⟨hnone, herror, hmd5, htotal⟩ := hquiet.takeStreamInfo
    (m := m₁.record (.metadataCallback (.streamInfo (emptyLink 2).info))) hflowing.unpending
    hflowing.chained (.inl hwrapped)
  have hcall := hdelivers.call (F := F) hflowing.unpending hflowing.source_eq
    (.cons m₁ _ _ _ _ rfl hnone (.nil _)) .processUntilEndOfLink
  generalize hm₂ : decodeMetadataCallback J (.streamInfo (emptyLink 2).info)
    (m₁.record (.metadataCallback (.streamInfo (emptyLink 2).info))) = m₂
    at hcall hnone herror hmd5 htotal
  rw [record_context, hflowing.error] at herror
  rw [record_context, hflowing.md5] at hmd5
  have hunknown : m₂.context.currentLinkTotalSamples = 0 := htotal
  have hlast : Decode.processLinks F J 1 s₁ m₁ = (some true, s₂,
      m₂.record (.returned .processUntilEndOfLink true (F.getState s₂.decoder) none)) := by
    unfold Decode.processLinks
    dsimp only
    rw [hcall]
    dsimp only
    rw [if_neg (by simp [exceptionCheck, hnone, herror]), hstate]
    dsimp only
    unfold validateChainedLinkSampleCount
    dsimp only
    rw [record_context, if_pos hunknown]
  have hprocess : processDecodeStream F J (1 + count) s m = (some true, s₂,
      m₂.record (.returned .processUntilEndOfLink true (F.getState s₂.decoder) none)) := by
    unfold processDecodeStream
    rw [if_neg (by simp [h.unlimited]), if_pos h.chained, hloop, hlast]
  unfold processAndFinish
  rw [hprocess]
  generalize hm₃ : m₂.record
    (.returned .processUntilEndOfLink true (F.getState s₂.decoder) none) = m₃
  have hnone₃ : m₃.pending = none := by rw [← hm₃]; exact hnone
  have hmd5₃ : m₃.context.chainedLinkMd5Failed = false := by rw [← hm₃]; exact hmd5
  dsimp only
  rw [finishDecode_completes hquiet hnone₃ (hfinish s₂.decoder) (by rw [hmd5₃]; rfl)]
  exact ⟨.java .onComplete .returned, List.mem_append_right _ (List.mem_singleton.mpr rfl), rfl⟩

end

/-- The machine in which the decode of a file begins to read it. -/
def fileStart : Machine :=
  { context := (DecodeRequest.whole containerOgg true true).context DecodeContext.zero.source
    pending := none
    history := [.java .encodePath .returned, .java .getObjectClass .returned,
      .java (.getMethodID "onStreamInfo") .returned,
      .java (.getMethodID "onPcmInterleaved") .returned,
      .java (.getMethodID "onComplete") .returned] }

theorem decode_file (scripts : List Script) (fuel : ℕ) :
    WholeSource.file.decode (scripted scripts) quietJvm fuel containerOgg true true =
      processAndFinish (scripted scripts) quietJvm fuel
        ("FLAC " ++ Transport.file.label ++ "decoding") true ⟨⟨scripts, .other⟩, []⟩ fileStart :=
  rfl

theorem fileStart_flowing (first : StreamInfo) :
    Flowing WholeSource.file.fields first 0 [] fileStart := by
  refine ⟨rfl, rfl, rfl, rfl, rfl, fun hbegun => absurd hbegun (lt_irrefl 0), rfl, ?_⟩
  exact ⟨by simp [fileStart, Event.isFailure], by simp [fileStart, Event.isComplete], rfl,
    .nil (by simp [fileStart, Event.chunk?]), rfl⟩

/-- A file of 2^32 links of one channel and one more link of two: the decode completes, although its
last link has another shape. -/
theorem decodeChained_wraps :
    ∃ At : List Link → Stream Scripted → Prop,
      (scripted (linkScripts (mixedChain 4294967296))).OffersChain quietJvm WholeSource.file.fields
        true At ∧
      (∀ decoder, (scripted (linkScripts (mixedChain 4294967296))).Configures .file
        (.whole containerOgg true true) decoder → At (mixedChain 4294967296) ⟨decoder, []⟩) ∧
      ¬ AllOrNothing (emptyLink 1).info (mixedChain 4294967296) true
        (WholeSource.file.decode (scripted (linkScripts (mixedChain 4294967296))) quietJvm
          (1 + 4294967296) containerOgg true true) := by
  have hverified : ∀ count, ∀ link ∈ mixedChain count, link.verified = true := by
    intro count link hlink
    rcases List.mem_append.mp hlink with hlink | hlink
    · rw [List.eq_of_mem_replicate hlink]
      rfl
    · rw [List.mem_singleton.mp hlink]
      rfl
  generalize hcount : (4294967296 : ℕ) = count
  have hreads := scripted_chains (linkScripts (mixedChain count)) quietJvm WholeSource.file.fields
  refine ⟨_, hreads.offers fun _ => rfl, fun decoder hconfigures =>
    ⟨congrArg Scripted.scripts (scripted_opens hconfigures), hverified count⟩, fun hall => ?_⟩
  have hcomplete := hall.completes.mp
  rw [decode_file] at hcomplete
  obtain ⟨-, hshapes, -⟩ := hcomplete ((fileStart_flowing _).completesMixed quietJvm_quiet hreads
    (fun _ => rfl) hcount.symm ⟨rfl, hverified count⟩ _ _)
  obtain ⟨⟨-, hchannels, -⟩, -⟩ := hshapes (emptyLink 2) (List.mem_append_right _ (by simp))
  cases hchannels

end JFlac.Decode
