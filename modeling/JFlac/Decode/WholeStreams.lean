import JFlac.Decode.Chains

/-!
# Whole-stream decodes

Outside a chain a whole stream is decoded by one call of `process_until_end_of_stream`. The frames
are only counted when the decoder reports the end of the stream: a decode that libFLAC leaves in
another state, its boolean being true, completes with the audio there was, however much STREAMINFO
declares.
-/

namespace JFlac.Decode

open Machine Lib

variable {D : Type} {F : LibFlac D} {J : Jvm}

/-- What the loop makes of a call of `process_until_end_of_stream` that handed over `rows`. -/
theorem Playing.toEnd_returned {base : List Event} {rows : List (List Sample)}
    {m m' : Machine} {s s' : Stream D} {success : Bool}
    (hcall : F.call J .processUntilEndOfStream (F.processUntilEndOfStream s.decoder)
      s.transportCalls m = (success, s', m'))
    (h : Playing base rows m') (hunlimited : m'.context.rangeLimited = false) :
    ∃ ended m'', Decode.processToEnd F J s m = (some ended, s', m'') ∧
      (ended = true ↔ success = true ∧
        (F.getState s'.decoder = .endOfStream → m'.context.passes rows = true)) ∧
      (ended = true → m'' = m') ∧ (ended = false → m''.MayRaise ∧ AddsUnheard m' m'') := by
  unfold Decode.processToEnd
  rw [hcall]
  dsimp only
  cases success with
  | false => exact ⟨false, m', rfl, by simp, by simp, fun _ => ⟨.inl h.unpending, .refl m'⟩⟩
  | true =>
    rw [if_neg (by simp [h.error, exceptionCheck, h.unpending])]
    by_cases hstate : F.getState s'.decoder = .endOfStream
    swap
    · rw [if_pos hstate]
      exact ⟨true, m', rfl, by simp [hstate], fun _ => rfl, by simp⟩
    rw [if_neg (not_not.mpr hstate), h.validate (h.unlimited hunlimited)]
    dsimp only
    cases hpasses : m'.context.passes rows with
    | true => exact ⟨true, m', rfl, by simp, fun _ => rfl, by simp⟩
    | false =>
      refine ⟨false, _, rfl, by simp [hstate], by simp, fun _ => ⟨.inr ⟨_, rfl⟩, ?_⟩⟩
      exact .single (throwDecode_history _ _) ⟨rfl, rfl⟩

/-- The end of a whole-stream decode from its initialised decoder. -/
theorem Initialised.whole_ends (hquiet : J.Quiet) {container : ℤ} {checkMd5 : Bool}
    {source : Source} {m : Machine} (hm : Initialised (.whole container checkMd5 false) source m)
    {info : StreamInfo} {others : ℕ} {blocks : List Frame} (hfits : ∀ b ∈ blocks, b.Fits)
    {decoder : D} {calls : List TransportCall} {success : Bool} {s : Stream D}
    (hdelivers : Delivers J source (F.processUntilEndOfStream decoder) calls
      ((.streamInfo info :: List.replicate others .other).map .metadata ++ blocks.map .pcm)
      success s)
    (fuel : ℕ) (what : String) :
    (processAndFinish F J fuel what checkMd5 ⟨decoder, calls⟩ m).Ends
      (decide (success = true ∧ F.finish s.decoder = true ∧
        (F.getState s.decoder = .endOfStream → info.totalSamples ≤ (rowsOf blocks).length)))
      (rowsOf blocks) := by
  obtain ⟨m₁, events, haccepts, hnone₁, hcontext₁, hhistory₁, hheard₁⟩ :=
    hquiet.acceptsMetadata (.streamInfo info :: List.replicate others .other) hm.pending
      (by rw [hm.context]; rfl)
  rw [List.foldl_cons, DecodeContext.metadata_others, hm.context] at hcontext₁
  have hplaying₁ : Playing [] [] m₁ := by
    refine .begin hnone₁ hhistory₁
      (hm.heard.append hheard₁) ?_ ?_ ?_ ?_ ?_
    · rw [hcontext₁]; rfl
    · rw [hcontext₁]; rfl
    · rw [hcontext₁]; exact Nat.zero_lt_succ _
    · rw [hcontext₁]; rfl
    · rw [hcontext₁]; rfl
  obtain ⟨m₂, hblocks, hplaying₂, hadvances⟩ := hplaying₁.accepts hquiet hfits
  rw [List.nil_append] at hplaying₂
  have hcall := hdelivers.call (F := F) hm.pending (by rw [hm.context]; rfl)
    (haccepts.append hblocks) .processUntilEndOfStream
  generalize hreturned : m₂.record
    (.returned .processUntilEndOfStream success (F.getState s.decoder) none) = m₃ at hcall
  have hplaying : Playing [] (rowsOf blocks) m₃ := by
    rw [← hreturned]
    exact hplaying₂.adds rfl hplaying₂.unpending (.single rfl ⟨rfl, rfl⟩)
  obtain ⟨emitted, complete, hcontext₂⟩ := hadvances
  have hcontext : m₃.context =
      (((DecodeRequest.whole container checkMd5 false).context source).captured info).progress
        emitted complete := by
    rw [← hreturned, record_context, hcontext₂, hcontext₁]
    rfl
  have hwindow : m₃.context.window (rowsOf blocks) = rowsOf blocks := by
    rw [hcontext]
    rfl
  have hpasses : m₃.context.passes (rowsOf blocks) = true ↔
      info.totalSamples ≤ (rowsOf blocks).length := by
    have hfields : m₃.context.rangeLimited = false ∧ m₃.context.sawStreamInfo = true ∧
        m₃.context.streamTotalSamples = info.totalSamples ∧ m₃.context.firstSample = 0 := by
      rw [hcontext]
      exact ⟨rfl, rfl, rfl, rfl⟩
    obtain ⟨hunlimited, hinfo, htotal, hfirst⟩ := hfields
    unfold DecodeContext.passes
    rw [hwindow, hunlimited, hinfo, htotal, hfirst]
    simp only [Bool.false_and, Bool.not_true, Bool.or_eq_true, Bool.false_eq_true, false_or,
      decide_eq_true_eq, Nat.sub_zero]
    omega
  have hplayed : F.call J .processUntilEndOfStream
      (F.processUntilEndOfStream (Stream.mk decoder calls).decoder)
      (Stream.mk decoder calls).transportCalls m = (success, s, m₃) := hcall
  obtain ⟨ended, m₄, hloop, hended, hkept, hadded⟩ :=
    hplaying.toEnd_returned hplayed (by rw [hcontext]; rfl)
  have hprocess : processDecodeStream F J fuel ⟨decoder, calls⟩ m =
      (some ended, s, m₄) := by
    unfold processDecodeStream
    rw [if_neg (by rw [hm.context]; exact Bool.false_ne_true),
      if_neg (by rw [hm.context]; exact Bool.false_ne_true)]
    exact hloop
  obtain ⟨events₃, hhistory₃, hheard₃⟩ := hplaying.heard
  rw [hwindow] at hheard₃
  unfold processAndFinish
  rw [hprocess]
  refine ⟨rfl, ?_⟩
  dsimp only
  by_cases hgood : ended = true ∧ F.finish s.decoder = true
  · obtain ⟨rfl, hfinish⟩ := hgood
    obtain ⟨hsuccess, hcount⟩ := hended.mp rfl
    obtain rfl := hkept rfl
    rw [if_pos (decide_eq_true ⟨hsuccess, hfinish, fun hstate => hpasses.mp (hcount hstate)⟩),
      finishDecode_completes hquiet hplaying.unpending hfinish (by rw [hcontext]; rfl) what]
    obtain ⟨events', hhistory', hserved⟩ := Heard.completed hhistory₃ hheard₃ F s
    rw [hhistory', List.nil_append]
    exact ⟨hplaying.unpending, hserved⟩
  · have hfailed : ended = false ∨ F.finish s.decoder = false := by
      by_contra hboth
      rw [not_or, Bool.not_eq_false, Bool.not_eq_false] at hboth
      exact hgood hboth
    have hcut : ¬ (success = true ∧ F.finish s.decoder = true ∧
        (F.getState s.decoder = .endOfStream → info.totalSamples ≤ (rowsOf blocks).length)) := by
      rintro ⟨hsuccess, hfinish, hcount⟩
      exact hgood ⟨hended.mpr ⟨hsuccess, fun hstate => hpasses.mpr (hcount hstate)⟩, hfinish⟩
    rw [decide_eq_false hcut, if_neg (by simp)]
    have hlast : m₄.MayRaise ∧ AddsUnheard m₃ m₄ := by
      cases ended with
      | true =>
        obtain rfl := hkept rfl
        exact ⟨.inl hplaying.unpending, .refl m₄⟩
      | false => exact hadded rfl
    obtain ⟨hraised, hadds⟩ := finishDecode_fails hlast.1 hfailed what checkMd5
    have hunheard : AddsUnheard m₃ (finishDecode F J what checkMd5 ended s m₄) :=
      hlast.2.trans hadds
    obtain ⟨events', hhistory', hheard'⟩ := hunheard.heard hhistory₃ hheard₃
    refine ⟨hraised, ?_⟩
    rw [hhistory', List.nil_append]
    exact hheard'

/-- A whole-stream decode completes exactly when libFLAC and `finish` succeed and, at the end of the
stream, no declared frame is missing. In every case the consumer has heard what was handed over. -/
theorem decodeWhole_answered (hquiet : J.Quiet) (input : WholeSource) (hstarts : input.Starts J)
    {container : ℤ} (hcontainer : isValidContainer container = true) {checkMd5 : Bool} {decoder : D}
    (hconfigures : F.Configures input.transport (.whole container checkMd5 false) decoder)
    {info : StreamInfo} {others : ℕ} {blocks : List Frame} (hfits : ∀ b ∈ blocks, b.Fits)
    {success : Bool} {s : Stream D}
    (hdelivers : Delivers J input.fields (F.processUntilEndOfStream decoder) input.calls
      ((.streamInfo info :: List.replicate others .other).map .metadata ++ blocks.map .pcm)
      success s)
    (fuel : ℕ) :
    (input.decode F J fuel container checkMd5 false).Ends
      (decide (success = true ∧ F.finish s.decoder = true ∧
        (F.getState s.decoder = .endOfStream → info.totalSamples ≤ (rowsOf blocks).length)))
      (rowsOf blocks) := by
  obtain ⟨m, what, hdecode, hm⟩ :=
    input.decode_initialised hquiet hstarts hcontainer hconfigures fuel
  rw [hdecode]
  exact hm.whole_ends hquiet hfits hdelivers fuel what

/-- What is handed over of a stream that declares five frames and is cut off after the second. -/
def cutDeliveries : List Delivery :=
  (.streamInfo (monoInfo 5) :: List.replicate 0 .other).map .metadata ++ twoBlocks.map .pcm

/-- libFLAC is content although its decoder is not at the end of the stream. -/
def cutShort : LibFlac Scripted :=
  scripted [⟨cutDeliveries.map Delivery.callback, true, .aborted⟩]

theorem decodeWhole_answered_cutShort :
    (WholeSource.file.decode cutShort quietJvm 0 containerNative true false).Ends true
      (rowsOf twoBlocks) := by
  have hconfigures : cutShort.Configures .file (.whole containerNative true false)
      ⟨[⟨cutDeliveries.map Delivery.callback, true, .aborted⟩], .other⟩ :=
    ⟨_, _, _, rfl, rfl, rfl, rfl⟩
  have hdelivers : Delivers quietJvm WholeSource.file.fields
      (cutShort.processUntilEndOfStream
        ⟨[⟨cutDeliveries.map Delivery.callback, true, .aborted⟩], .other⟩)
      WholeSource.file.calls cutDeliveries true ⟨⟨[], .aborted⟩, []⟩ :=
    play_delivers quietJvm _ _ _ cutDeliveries
  have hanswered := decodeWhole_answered quietJvm_quiet .file trivial rfl hconfigures
    twoBlocks_fits hdelivers 0
  rwa [decide_eq_true ⟨rfl, rfl, by decide⟩] at hanswered

end JFlac.Decode
