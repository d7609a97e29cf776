import JFlac.Decode.Slices

/-!
# One-shot decodes and sessions

A request may be made of a session or decoded one-shot. The two agree on every stream but for two
kinds of requests, because only the session seeks without looking: an unbounded request that starts
exactly at the declared end, and a request at sample zero of a stream that has no audio and declares
none. The one-shot decode completes both of them empty; the session fails to seek.
-/

namespace JFlac.Decode

open Machine Lib

variable {D : Type}

/-- Two operations had the same outcome: both completed with the same rows, or both raised. -/
def Ending.Same (ending ending' : Ending) : Prop :=
  ending.1 = ending'.1 ∧ (ending.1 = true → ending.2 = ending'.2)

theorem Ending.Same.refl (ending : Ending) : ending.Same ending := ⟨rfl, fun _ => rfl⟩

namespace SessionRequest

/-- The request has no bound and starts exactly at the end that a stream of `total` frames
declares. -/
def StartsAtEnd (total : ℕ) (request : SessionRequest) : Prop :=
  request.maxFrames? = none ∧ 0 < total ∧ request.firstSample = total

/-- The request asks for frames from sample zero of a stream without audio that does not declare how
many frames it has. -/
def StartsEmpty (total : ℕ) (all : List (List Sample)) (request : SessionRequest) : Prop :=
  total = 0 ∧ all = [] ∧ request.firstSample = 0 ∧ request.maxFrames? ≠ some 0

/-- Where both find the same rows, only the declared end makes a difference. -/
theorem ending_same_iff {request : SessionRequest} (hvalid : request.Valid) {total : ℕ}
    {all : List (List Sample)} :
    (request.ending total (request.found total all)).Same
        (request.sessionEnding total (request.found total all)) ↔
      ¬ request.StartsAtEnd total := by
  cases request with
  | range firstSample maxFrames =>
    exact iff_of_true (.refl _) fun h => Option.some_ne_none _ h.1
  | toEnd firstSample =>
    have hnonneg : 0 ≤ firstSample := hvalid.1
    have hstarts : (toEnd firstSample).StartsAtEnd total ↔ 0 < total ∧ firstSample.toNat = total := by
      unfold StartsAtEnd
      dsimp only [maxFrames?, SessionRequest.firstSample]
      rw [eq_self_iff_true, true_and]
      omega
    rw [hstarts, ending_toEnd]
    by_cases hbehind : 0 < total ∧ total < firstSample.toNat
    · rw [if_pos hbehind, found_of_le (toEnd firstSample) (.inr ⟨hbehind.1, Nat.le_of_lt hbehind.2⟩)]
      exact iff_of_true (.refl _) (by omega)
    rw [if_neg hbehind]
    by_cases hend : 0 < total ∧ firstSample.toNat = total
    · -- the one-shot decode is done, the seek of the session fails
      rw [if_pos hend, found_of_le (toEnd firstSample) (.inr ⟨hend.1, Nat.le_of_eq hend.2.symm⟩)]
      exact iff_of_false (fun h => Bool.noConfusion h.1) (not_not.mpr hend)
    · rw [if_neg hend]
      exact iff_of_true (.refl _) hend

/-- Exactly which requests end in the same way. -/
theorem once_same_iff {request : SessionRequest} (hvalid : request.Valid) {total : ℕ}
    {all : List (List Sample)} :
    (request.ending total (request.onceFound total all)).Same
        (request.sessionEnding total (request.found total all)) ↔
      ¬ request.StartsAtEnd total ∧ ¬ request.StartsEmpty total all := by
  by_cases hstart : request.firstSample = 0 ∧ all = []
  swap
  · -- both find the same rows
    have hfound : request.onceFound total all = request.found total all := by
      by_cases hzero : request.firstSample = 0
      · have hne : all ≠ [] := fun hnil => hstart ⟨hzero, hnil⟩
        exact onceFound_of_pos (List.length_pos_iff.mpr hne) request
      · exact if_neg hzero
    rw [hfound, ending_same_iff hvalid]
    exact (and_iff_left fun h => hstart ⟨h.2.2.1, h.2.1⟩).symm
  obtain ⟨hzero, rfl⟩ := hstart
  have honce : request.onceFound total [] = some [] := if_pos hzero
  have hfound : request.found total [] = none :=
    found_of_le request (.inl (Nat.zero_le _))
  have hinside : ¬ (0 < total ∧ total < request.firstSample.toNat) := by
    rw [hzero]
    simp
  have hatEnd : ¬ (0 < total ∧ request.firstSample.toNat = total) := by
    rw [hzero, Int.toNat_zero]
    omega
  have hstarts : ¬ request.StartsAtEnd total := by
    rintro ⟨-, hpos, hend⟩
    rw [hzero] at hend
    omega
  rw [honce, hfound, and_iff_right hstarts]
  unfold StartsEmpty
  by_cases hbound : request.maxFrames? = some 0
  · -- a bound of zero is served before any seek
    refine iff_of_true ?_ fun h => h.2.2.2 hbound
    cases request with
    | toEnd firstSample => cases hbound
    | range firstSample maxFrames =>
      have hempty : ∀ found, (range firstSample maxFrames).ending total found = (true, []) :=
        fun found => (if_neg hinside).trans (if_pos (.inl hbound))
      show Ending.Same _ ((range firstSample maxFrames).ending total none)
      rw [hempty, hempty]
      exact .refl _
  · have hplays : ∀ found, request.ending total found = found.elim (false, [])
        fun rows => request.played total rows :=
      fun found => (if_neg hinside).trans (if_neg (not_or.mpr ⟨hbound, hatEnd⟩))
    have hsession : request.sessionEnding total none = (false, []) := by
      cases request with
      | toEnd firstSample => rfl
      | range firstSample maxFrames => exact hplays none
    have hplayed : (request.played total []).1 = true ↔ total = 0 := by
      cases request with
      | toEnd firstSample =>
        dsimp only [SessionRequest.firstSample] at hzero
        dsimp only [played]
        rw [decide_eq_true_iff, hzero]
        simp
      | range firstSample maxFrames =>
        obtain ⟨-, hmax⟩ := hvalid
        have hpos : 0 < maxFrames.toNat := by
          have := hmax maxFrames rfl
          have : maxFrames ≠ 0 := fun h => hbound (congrArg some h)
          omega
        dsimp only [SessionRequest.firstSample] at hzero
        dsimp only [played]
        rw [decide_eq_true_iff, hzero]
        simp
        omega
    rw [hplays, hsession]
    show ((request.played total []).1 = false ∧
      ((request.played total []).1 = true → (request.played total []).2 = [])) ↔ _
    rw [← Bool.not_eq_true, hplayed]
    simp only [hzero, hbound, ne_eq, not_false_eq_true, and_self, and_true]
    exact and_iff_left_of_imp fun hne hzero => absurd hzero hne

end SessionRequest

section
variable {F : LibFlac D} {J : Jvm} {source : Source} {blocks : List Frame}
  {At : List Frame → Stream D → Prop}

/-- A session stays usable through any run of requests, whatever its stream declares. -/
theorem SessionReady.kept (hquiet : J.Quiet) {total : ℕ}
    (hreads : F.Locates J source blocks total At) {fuel : ℕ} (hfuel : blocks.length < fuel)
    (hfits : ∀ b ∈ blocks, b.Fits) {session : Session D}
    (hready : SessionReady At source total session) (requests : List SessionRequest) :
    SessionReady At source total (sessionAfter F J fuel requests session) := by
  induction requests generalizing session with
  | nil => exact hready
  | cons request requests ih =>
    apply ih
    show SessionReady At source total (request.decode F J fuel session).session
    by_cases hvalid : request.Valid
    · obtain ⟨rest, hat⟩ := hready.position
      obtain ⟨found, hseeks, -, hplayed⟩ := hreads.seeks hfits hat request
      exact (request.decode_ends hquiet hreads.toReads hready
        (fun played hp => Nat.lt_of_le_of_lt (hplayed played hp).1 hfuel)
        (fun played hp => (hplayed played hp).2) hvalid hseeks).ready
    · obtain ⟨message, hrefused⟩ := request.decode_refused F J fuel hready hvalid
      rw [hrefused]
      exact ⟨hready.position, hready.serves⟩

/-- A one-shot decode and a session have the same outcome, for every stream and whatever was
requested of the session before, unless the request starts at the declared end without a bound, or
asks for frames of a stream that is empty and says nothing of its length. -/
theorem decode_interchangeable_iff (hquiet : J.Quiet) (hfinish : ∀ d, F.finish d = true)
    (input : SessionSource) (hstarts : input.Starts J) {container : ℤ}
    (hcontainer : isValidContainer container = true) {info : StreamInfo} {s : Stream D}
    (hopens : F.Opens J input.fields input.transport container input.calls info s)
    (hreads : F.Locates J input.fields blocks info.totalSamples At) (hat : At blocks s)
    (hfits : ∀ b ∈ blocks, b.Fits) {fuel : ℕ} (hfuel : blocks.length < fuel) :
    ∃ session m, input.openDecoder F J container = (some session, m) ∧
      ∀ (earlier : List SessionRequest) (request : SessionRequest), request.Valid →
        ∃ once later : Ending,
          (request.decodeOnce F J fuel container input).Ends once.1 once.2 ∧
          (request.decode F J fuel (sessionAfter F J fuel earlier session)).Ends At input.fields
            info.totalSamples (sessionAfter F J fuel earlier session) later ∧
          (once.Same later ↔ ¬ request.StartsAtEnd info.totalSamples ∧
            ¬ request.StartsEmpty info.totalSamples (rowsOf blocks)) := by
  obtain ⟨session, m, hopen, hready⟩ :=
    input.openDecoder_ready hquiet hstarts hcontainer hopens ⟨_, hat⟩
  refine ⟨session, m, hopen, fun earlier request hvalid => ?_⟩
  have hkept := hready.kept hquiet hreads hfuel hfits earlier
  obtain ⟨rest, hat'⟩ := hkept.position
  obtain ⟨started, hfrom, hstarted, hplayed⟩ := hreads.starts hat hfits request
  obtain ⟨found, hseeks, hfound, hplayed'⟩ := hreads.seeks hfits hat' request
  have honce := decodeOnce_ends hquiet hfinish input hstarts hcontainer hopens hreads.toReads hvalid
    (fun _ => hfrom) (fun played hp => Nat.lt_of_le_of_lt (hplayed played hp).1 hfuel)
    fun played hp => (hplayed played hp).2
  have hlater := request.decode_ends hquiet hreads.toReads hkept
    (fun played hp => Nat.lt_of_le_of_lt (hplayed' played hp).1 hfuel)
    (fun played hp => (hplayed' played hp).2) hvalid hseeks
  rw [hstarted] at honce
  rw [hfound] at hlater
  exact ⟨_, _, honce, hlater, SessionRequest.once_same_iff hvalid⟩

theorem decode_interchangeable_iff_twoBlocks :
    ∃ session m,
      SessionSource.openDecoder (scriptedReader (monoInfo 2) twoBlocks) quietJvm 0 (.channel 0) =
        (some session, m) ∧
      ∀ (earlier : List SessionRequest) (request : SessionRequest), request.Valid →
        ∃ once later : Ending,
          (request.decodeOnce (scriptedReader (monoInfo 2) twoBlocks) quietJvm 3 0
            (.channel 0)).Ends once.1 once.2 ∧
          (request.decode (scriptedReader (monoInfo 2) twoBlocks) quietJvm 3
            (sessionAfter (scriptedReader (monoInfo 2) twoBlocks) quietJvm 3 earlier session)).Ends
            (fun rest s => s.decoder.scripts = rest.map Script.block) (channelSource 0) 2
            (sessionAfter (scriptedReader (monoInfo 2) twoBlocks) quietJvm 3 earlier session) later ∧
          (once.Same later ↔ ¬ request.StartsAtEnd 2 ∧
            ¬ request.StartsEmpty 2 (rowsOf twoBlocks)) :=
  decode_interchangeable_iff quietJvm_quiet (fun _ => rfl) (.channel 0) ⟨by decide, [], rfl⟩ rfl
    (scriptedReader_opens _ _ _ _ _ _ _) (scriptedReader_seekable _ _ _ _).locates rfl twoBlocks_fits
    (by decide)

/-- Two blocks of one frame each, decoded from sample 2: the one-shot decode completes with nothing
to hand over, the session raises. -/
theorem decodeDecoderFrom_atEnd_raises :
    ∃ session m,
      SessionSource.openDecoder (scriptedReader (monoInfo 2) twoBlocks) quietJvm 0 .file =
        (some session, m) ∧
      ((SessionRequest.toEnd 2).decodeOnce (scriptedReader (monoInfo 2) twoBlocks) quietJvm 3 0
        .file).machine.pending = none ∧
      ((SessionRequest.toEnd 2).decode (scriptedReader (monoInfo 2) twoBlocks) quietJvm 3
        session).session.machine.Raised := by
  have hreads := scriptedReader_seekable (monoInfo 2) twoBlocks quietJvm SessionSource.file.fields
  have hvalid : (SessionRequest.toEnd 2).Valid := ⟨by decide, by simp [SessionRequest.maxFrames?]⟩
  -- The session may stand anywhere in the file: every request seeks.
  have hopened : ∃ session m,
      SessionSource.openDecoder (scriptedReader (monoInfo 2) twoBlocks) quietJvm 0 .file =
        (some session, m) ∧
      SessionReady (fun rest s => s.decoder.scripts = rest.map Script.block)
        SessionSource.file.fields 2 session :=
    SessionSource.file.openDecoder_ready quietJvm_quiet trivial rfl
      (scriptedReader_opens (monoInfo 2) twoBlocks _ _ _ _ _) ⟨twoBlocks, rfl⟩
  obtain ⟨session, m, hopen, hready⟩ := hopened
  have honce := decodeOnce_slices quietJvm_quiet (fun _ => rfl) .file trivial
    (show isValidContainer 0 = true from rfl) (scriptedReader_opens (monoInfo 2) twoBlocks _ _ _ _ _)
    hreads rfl twoBlocks_fits rfl (by decide) (show twoBlocks.length < 3 by decide) hvalid
  have hlater := SessionRequest.decode_slices quietJvm_quiet hreads
    (show twoBlocks.length < 3 by decide) twoBlocks_fits (by decide) hready hvalid
  obtain ⟨events, -, hraised, -⟩ := hlater.ended
  exact ⟨session, m, hopen, honce.2.1, hraised⟩

end

end JFlac.Decode
