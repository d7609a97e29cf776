import JFlac.Decode.Opening
import JFlac.Decode.Playing
import JFlac.Decode.Scripted

/-!
# Decoding a range

On a JVM in which nothing fails and over a libFLAC that reads a list of blocks, the processing loops
hand the consumer the requested window of the audio, whatever the sizes of the blocks are. A
one-shot decode of a range delivers that window and completes, and so does every request of a run of
requests on one session.
-/

namespace JFlac.Decode

open Machine Lib

variable {D : Type}

/-- libFLAC as a reader of blocks: besides `process_single` there is the call that hands over all of
them. -/
structure LibFlac.Reads (F : LibFlac D) (J : Jvm) (source : Source)
    (At : List Frame → Stream D → Prop) : Prop extends F.Singles J source At where
  stream : ∀ rest s, At rest s →
    ∃ s', Delivers J source (F.processUntilEndOfStream s.decoder) s.transportCalls
        (rest.map .pcm) true s' ∧
      F.getState s'.decoder = .endOfStream ∧ At [] s'

/-- libFLAC as a seekable reader of blocks. `At rest s` says that the decoder behind `s` stands in
front of the blocks `rest`. A seek hands over what the block of the target holds from there on, and
fails behind the last sample. -/
structure LibFlac.Seekable (F : LibFlac D) (J : Jvm) (source : Source) (blocks : List Frame)
    (At : List Frame → Stream D → Prop) : Prop extends F.Reads J source At where
  seek : ∀ rest s sample block after, At rest s → seekBlocks blocks sample = some (block, after) →
    ∃ s', Delivers J source (F.seekAbsolute s.decoder sample) s.transportCalls [.pcm block] true s' ∧
      At after s'
  past : ∀ rest s sample, At rest s → (rowsOf blocks).length ≤ sample →
    ∃ s', Delivers J source (F.seekAbsolute s.decoder sample) s.transportCalls [] false s' ∧
      At rest s'

/-- libFLAC as a reader of any audio, under a STREAMINFO that declares `total` frames (0: it does not
say). A seek finds a sample that is there and lies before the declared end. -/
structure LibFlac.Locates (F : LibFlac D) (J : Jvm) (source : Source) (blocks : List Frame)
    (total : ℕ) (At : List Frame → Stream D → Prop) : Prop extends F.Reads J source At where
  seek : ∀ rest s sample block after, At rest s → total = 0 ∨ sample < total →
    seekBlocks blocks sample = some (block, after) →
    ∃ s', Delivers J source (F.seekAbsolute s.decoder sample) s.transportCalls [.pcm block] true s' ∧
      At after s'
  miss : ∀ rest s sample, At rest s →
    (rowsOf blocks).length ≤ sample ∨ (0 < total ∧ total ≤ sample) →
    ∃ s', Delivers J source (F.seekAbsolute s.decoder sample) s.transportCalls [] false s' ∧
      At rest s'

/-- A seekable reader whose STREAMINFO declares the frames there are. -/
theorem LibFlac.Seekable.locates {F : LibFlac D} {J : Jvm} {source : Source} {blocks : List Frame}
    {At : List Frame → Stream D → Prop} (h : F.Seekable J source blocks At) :
    F.Locates J source blocks (rowsOf blocks).length At where
  toReads := h.toReads
  seek rest s sample block after hat _ hseek := h.seek rest s sample block after hat hseek
  miss rest s sample hat hmiss := h.past rest s sample hat (hmiss.elim id fun hend => hend.2)

theorem seekBlocks_length {blocks after : List Frame} {sample : ℕ} {block : Frame}
    (h : seekBlocks blocks sample = some (block, after)) : after.length < blocks.length := by
  induction blocks generalizing sample with
  | nil => cases h
  | cons first blocks ih =>
    unfold seekBlocks at h
    split at h
    · cases h
      exact Nat.lt_succ_self _
    · exact Nat.lt_succ_of_lt (ih h)

/-- In a quiet JVM the lookups of an operation succeed, and the consumer hears nothing. -/
theorem Jvm.Quiet.prepareDecodeContext (hquiet : J.Quiet) {m : Machine} (hnone : m.pending = none) :
    ∃ m' events, Decode.prepareDecodeContext J m = (true, m') ∧ m'.pending = none ∧
      m'.context = m.context.prepared ∧ m'.history = m.history ++ events ∧ Heard events [] := by
  have hprepares := prepareDecodeContext_prepares J hnone
  have hsuccess : (Decode.prepareDecodeContext J m).1 = true := by
    unfold Decode.prepareDecodeContext callJavaObject Machine.resolve
    simp [hquiet.callJava, hnone, exceptionCheck]
  obtain ⟨events, hhistory, hinternal⟩ := hprepares.adds
  exact ⟨_, events, Prod.ext hsuccess rfl, hprepares.pending hsuccess, hprepares.context hsuccess,
    hhistory, .of_internal hinternal⟩

theorem seekBlocks_of_le {blocks : List Frame} {sample : ℕ}
    (h : (rowsOf blocks).length ≤ sample) : seekBlocks blocks sample = none := by
  induction blocks generalizing sample with
  | nil => rfl
  | cons first blocks ih =>
    rw [rowsOf_cons, List.length_append, Frame.length_rows] at h
    unfold seekBlocks
    rw [if_neg (by omega)]
    exact ih (by omega)

/-- The callback that makes a delivery. -/
def Delivery.callback : Delivery → Callback
  | .pcm frame => .write frame
  | .metadata block => .metadata block
  | .error status => .error status

/-- A script that makes the given deliveries. -/
theorem play_delivers (J : Jvm) (source : Source) (next : Scripted) (calls : List TransportCall)
    (deliveries : List Delivery) :
    Delivers J source (Script.play true next (deliveries.map Delivery.callback)) calls deliveries
      true ⟨next, calls⟩ := by
  induction deliveries with
  | nil => exact .done _ _ _
  | cons delivery deliveries ih =>
    cases delivery with
    | pcm frame => exact .pcm _ _ _ _ _ _ ih
    | metadata block => exact .metadata _ _ _ _ _ _ ih
    | error status => exact .error _ _ _ _ _ _ ih

/-- The scripted library as a seekable reader of the given blocks. -/
def scriptedReader (info : StreamInfo) (blocks : List Frame) : LibFlac Scripted :=
  { scripted (blocks.map Script.block) with
    processUntilEndOfMetadata := fun d =>
      .call (.metadata (.streamInfo info)) fun _ => .done (true, d)
    processUntilEndOfStream := fun d =>
      Script.play true ⟨[], .endOfStream⟩ (d.scripts.flatMap Script.callbacks)
    seekAbsolute := fun d sample =>
      match seekBlocks blocks sample with
      | some (block, after) => Script.play true ⟨after.map Script.block, .other⟩ [.write block]
      | none => .done (false, d) }

theorem scriptedReader_reads (info : StreamInfo) (blocks : List Frame) (J : Jvm)
    (source : Source) : (scriptedReader info blocks).Reads J source fun rest s =>
      s.decoder.scripts = rest.map Script.block := by
  have hsingles := scripted_singles (blocks.map Script.block) J source
  refine ⟨⟨hsingles.block, hsingles.ended⟩, fun rest s hat => ?_⟩
  refine ⟨⟨⟨[], .endOfStream⟩, s.transportCalls⟩, ?_, rfl, rfl⟩
  have hcallbacks : (rest.map Script.block).flatMap Script.callbacks =
      (rest.map Delivery.pcm).map Delivery.callback := by
    rw [List.flatMap_map, List.map_map, List.map_eq_flatMap]
    rfl
  unfold scriptedReader
  dsimp only
  rw [hat, hcallbacks]
  exact play_delivers J source _ _ _

theorem scriptedReader_seekable (info : StreamInfo) (blocks : List Frame) (J : Jvm)
    (source : Source) : (scriptedReader info blocks).Seekable J source blocks fun rest s =>
      s.decoder.scripts = rest.map Script.block := by
  refine ⟨scriptedReader_reads info blocks J source, ?_, ?_⟩
  · intro rest s sample block after _ hseek
    refine ⟨⟨⟨after.map Script.block, .other⟩, s.transportCalls⟩, ?_, rfl⟩
    unfold scriptedReader
    dsimp only
    rw [hseek]
    exact play_delivers J source _ _ [.pcm block]
  · intro rest s sample hat hle
    refine ⟨⟨s.decoder, s.transportCalls⟩, ?_, hat⟩
    unfold scriptedReader
    dsimp only
    rw [seekBlocks_of_le hle]
    exact .done _ _ _

/-! ## Metadata -/

/-- The context after a metadata block, outside a chain. -/
def DecodeContext.metadata (c : DecodeContext) : Metadata → DecodeContext
  | .streamInfo info => c.captured info
  | .other => c

theorem DecodeContext.metadata_others (c : DecodeContext) (count : ℕ) :
    (List.replicate count Metadata.other).foldl DecodeContext.metadata c = c := by
  induction count with
  | zero => rfl
  | succ count ih => exact ih

/-- In a quiet JVM STREAMINFO is stored, and perhaps shown to the consumer. -/
theorem Jvm.Quiet.captureStreamInfo {J : Jvm} (hquiet : J.Quiet) {m : Machine}
    (hnone : m.pending = none) (info publicInfo : StreamInfo) :
    ∃ events, (Decode.captureStreamInfo J info publicInfo m).pending = none ∧
      (Decode.captureStreamInfo J info publicInfo m).context = m.context.captured info ∧
      (Decode.captureStreamInfo J info publicInfo m).history = m.history ++ events ∧
      ∀ e ∈ events, e.chunk? = none ∧ e.isComplete = false := by
  unfold Decode.captureStreamInfo
  dsimp only
  generalize hcaptured : m.withContext (m.context.captured info) = m₁
  have hnone₁ : m₁.pending = none := by rw [← hcaptured]; exact hnone
  have hcontext₁ : m₁.context = m.context.captured info := by rw [← hcaptured]; rfl
  have hhistory₁ : m₁.history = m.history := by rw [← hcaptured]; rfl
  split
  · exact ⟨[], hnone₁, hcontext₁, by rw [hhistory₁, List.append_nil], by simp⟩
  · refine ⟨[.java (.newStreamInfo publicInfo) .returned,
      .java (.onStreamInfo publicInfo) .returned], ?_⟩
    unfold callJavaObject
    rw [hquiet.callJava _ hnone₁, if_pos (by simp [exceptionCheck, hnone₁]),
      hquiet.callJava _ (by exact hnone₁)]
    refine ⟨hnone₁, hcontext₁, ?_, by simp [Event.chunk?, Event.isComplete]⟩
    simp [Machine.record, hhistory₁]

/-- Outside a chain a metadata block is ignored or stored. -/
theorem Jvm.Quiet.takeMetadata {J : Jvm} (hquiet : J.Quiet) {m : Machine} (hnone : m.pending = none)
    (hplain : m.context.decodeChainedOgg = false) (block : Metadata) :
    ∃ m' events, (Delivery.metadata block).take J m = (.cont, m') ∧ m'.pending = none ∧
      m'.context = m.context.metadata block ∧ m'.history = m.history ++ events ∧
      Heard events [] := by
  cases block with
  | other =>
    exact ⟨_, [.metadataCallback .other], rfl, hnone, rfl, rfl,
      .of_quiet (by simp [Event.chunk?, Event.isComplete])⟩
  | streamInfo info =>
    obtain ⟨events, hnone', hcontext, hhistory, hevents⟩ := hquiet.captureStreamInfo
      (m := m.record (.metadataCallback (.streamInfo info))) hnone info info
    refine ⟨_, .metadataCallback (.streamInfo info) :: events, ?_, hnone', hcontext, ?_,
      .of_quiet (List.forall_mem_cons.mpr ⟨⟨rfl, rfl⟩, hevents⟩)⟩
    · show (WriteStatus.cont, decodeMetadataCallback J _ _) = _
      unfold decodeMetadataCallback
      dsimp only
      rw [record_context, if_neg (by simp [hplain])]
    · rw [hhistory, record_history, List.append_assoc, List.singleton_append]

/-- The metadata of a stream. -/
theorem Jvm.Quiet.acceptsMetadata {J : Jvm} (hquiet : J.Quiet) (blocks : List Metadata)
    {m : Machine} (hnone : m.pending = none) (hplain : m.context.decodeChainedOgg = false) :
    ∃ m' events, Accepts J m (blocks.map .metadata) m' ∧ m'.pending = none ∧
      m'.context = blocks.foldl DecodeContext.metadata m.context ∧
      m'.history = m.history ++ events ∧ Heard events [] := by
  induction blocks generalizing m with
  | nil => exact ⟨m, [], .nil m, hnone, rfl, (List.append_nil _).symm, .of_quiet (by simp)⟩
  | cons block blocks ih =>
    obtain ⟨m₁, events, htake, hnone₁, hcontext, hhistory, hheard⟩ :=
      hquiet.takeMetadata hnone hplain block
    have hplain₁ : m₁.context.decodeChainedOgg = false := by
      rw [hcontext]
      cases block <;> exact hplain
    obtain ⟨m₂, events', haccepts, hnone₂, hcontext', hhistory', hheard'⟩ := ih hnone₁ hplain₁
    refine ⟨m₂, events ++ events', .cons m m₁ m₂ _ _ htake hnone₁ haccepts, hnone₂, ?_, ?_,
      hheard.append hheard'⟩
    · rw [hcontext', hcontext, List.foldl_cons]
    · rw [hhistory', hhistory, List.append_assoc]

/-- libFLAC opens a source: it allocates and initialises a decoder, and the metadata pass hands over
STREAMINFO before any other block. -/
structure LibFlac.Opens (F : LibFlac D) (J : Jvm) (source : Source) (transport : Transport)
    (container : ℤ) (calls : List TransportCall) (info : StreamInfo) (s : Stream D) : Prop where
  opens : ∃ decoder decoder' count, F.new = some decoder ∧
    F.init transport container decoder = some decoder' ∧
    Delivers J source (F.processUntilEndOfMetadata decoder') calls
      ((.streamInfo info :: List.replicate count .other).map .metadata) true s

theorem scriptedReader_opens (info : StreamInfo) (blocks : List Frame) (J : Jvm) (source : Source)
    (transport : Transport) (container : ℤ) (calls : List TransportCall) :
    (scriptedReader info blocks).Opens J source transport container calls info
      ⟨⟨blocks.map Script.block, .other⟩, calls⟩ :=
  ⟨_, _, 0, rfl, rfl, .metadata _ _ _ _ _ _ (.done _ _ _)⟩

/-- The metadata call of an operation. -/
theorem Jvm.Quiet.callMetadata {F : LibFlac D} {J : Jvm} (hquiet : J.Quiet) {source : Source}
    {calls : List TransportCall} {info : StreamInfo} {count : ℕ} {s : Stream D}
    {activity : Activity D}
    (hdelivers : Delivers J source activity calls
      ((.streamInfo info :: List.replicate count .other).map .metadata) true s)
    {m : Machine} (hnone : m.pending = none) (hplain : m.context.decodeChainedOgg = false)
    (hsource : m.context.source = source) (api : Api) :
    ∃ m' events, F.call J api activity calls m = (true, s, m') ∧ m'.pending = none ∧
      m'.context = m.context.captured info ∧ m'.history = m.history ++ events ∧
      Heard events [] := by
  obtain ⟨m', events, haccepts, hnone', hcontext, hhistory, hheard⟩ :=
    hquiet.acceptsMetadata _ hnone hplain
  rw [List.foldl_cons, DecodeContext.metadata_others] at hcontext
  refine ⟨_, events ++ [.returned api true (F.getState s.decoder) none],
    hdelivers.call hnone hsource haccepts api, hnone', hcontext, ?_,
    hheard.append (.of_quiet (by simp [Event.chunk?, Event.isComplete]))⟩
  rw [← List.append_assoc, ← hhistory]
  rfl

/-! ## Sources -/

theorem Jvm.Quiet.jstringToUtf8 {J : Jvm} (hquiet : J.Quiet) {m : Machine} (hnone : m.pending = none) :
    Decode.jstringToUtf8 J m = (true, m.record (.java .encodePath .returned)) := by
  unfold Decode.jstringToUtf8 callJavaObject
  rw [hquiet.callJava _ hnone]
  dsimp only
  rw [hquiet.malloc]
  simp [exceptionCheck, hnone]

/-- The source fields of an operation on a channel opened at the given position. -/
def channelSource (position : ℤ) : Source :=
  { DecodeContext.zero.source with channelBaseOffset := position, seekableChannel := true }

/-- A quiet channel is opened at its position. -/
theorem Jvm.Quiet.prepareDecodeSeekableChannel {J : Jvm} (hquiet : J.Quiet) {position : ℤ}
    {bytes : List UInt8} (hstart : J.transport [] .position = .ok ⟨position, bytes⟩)
    (hnonneg : 0 ≤ position) {m : Machine} (hnone : m.pending = none) :
    ∃ m' events, Decode.prepareDecodeSeekableChannel J m [] = (true, m', [.position]) ∧
      m'.pending = none ∧ m'.context = m.context.withChannel position ∧
      m'.history = m.history ++ events ∧ Heard events [] := by
  obtain ⟨position', hprepares, -⟩ := prepareDecodeSeekableChannel_prepares J hnone []
  have hresult : (Decode.prepareDecodeSeekableChannel J m []).1 = true ∧
      (Decode.prepareDecodeSeekableChannel J m []).2.2 = [.position] ∧
      (Decode.prepareDecodeSeekableChannel J m []).2.1.context =
        m.context.withChannel position := by
    unfold Decode.prepareDecodeSeekableChannel Machine.resolve callJavaObject callTransport
    simp [hquiet.callJava, hnone, exceptionCheck, hstart, Int.not_lt.mpr hnonneg]
    rfl
  obtain ⟨hsuccess, hcalls, hcontext⟩ := hresult
  obtain ⟨events, hhistory, hinternal⟩ := hprepares.adds
  exact ⟨_, events, Prod.ext hsuccess (Prod.ext rfl hcalls), hprepares.pending hsuccess, hcontext,
    hhistory, .of_internal hinternal⟩

/-! ## The processing loops -/

/-- The rows, handed over up to the end of the stream, pass the native frame-count check, or the
range was complete before. -/
def DecodeContext.passes (c : DecodeContext) (rows : List (List Sample)) : Bool :=
  (c.rangeLimited && decide (c.maxFrames ≤ rows.length)) || !c.sawStreamInfo ||
    decide (c.streamTotalSamples = 0) || decide (c.streamTotalSamples ≤ c.firstSample) ||
    decide (c.streamTotalSamples - c.firstSample ≤ (c.window rows).length)

theorem Advances.rangeLimited {c c' : DecodeContext} (h : Advances c c') :
    c'.rangeLimited = c.rangeLimited := by
  obtain ⟨emitted, complete, rfl⟩ := h
  rfl

theorem Advances.source {c c' : DecodeContext} (h : Advances c c') : c'.source = c.source := by
  obtain ⟨emitted, complete, rfl⟩ := h
  rfl

theorem Advances.passes {c c' : DecodeContext} (h : Advances c c') (rows : List (List Sample)) :
    c'.passes rows = c.passes rows := by
  obtain ⟨emitted, complete, rfl⟩ := h
  rfl

theorem DecodeContext.passes_of_complete {c : DecodeContext} (hlimited : c.rangeLimited = true)
    {rows : List (List Sample)} (hle : c.maxFrames ≤ rows.length) : c.passes rows = true := by
  unfold DecodeContext.passes
  rw [hlimited, decide_eq_true hle]
  rfl

theorem DecodeContext.window_nil (c : DecodeContext) : c.window [] = [] := by
  unfold DecodeContext.window
  split
  · exact List.take_nil
  · rfl

/-- Without a bound, every declared frame counts. -/
theorem DecodeContext.passes_unbounded {c : DecodeContext} (hlimited : c.rangeLimited = false)
    (hinfo : c.sawStreamInfo = true) (rows : List (List Sample)) :
    c.passes rows = decide (c.streamTotalSamples = 0 ∨
      c.streamTotalSamples ≤ c.firstSample + rows.length) := by
  have hwindow : c.window rows = rows := if_neg (by simp [hlimited])
  unfold DecodeContext.passes
  rw [hwindow, hlimited, hinfo, Bool.eq_iff_iff]
  simp only [Bool.false_and, Bool.not_true, Bool.or_false, Bool.false_or, Bool.or_eq_true,
    decide_eq_true_eq]
  omega

/-- With a bound, a range that was filled passes as well. -/
theorem DecodeContext.passes_bounded {c : DecodeContext} (hlimited : c.rangeLimited = true)
    (hinfo : c.sawStreamInfo = true) (rows : List (List Sample)) :
    c.passes rows = decide (c.maxFrames ≤ rows.length ∨ c.streamTotalSamples = 0 ∨
      c.streamTotalSamples ≤ c.firstSample + rows.length) := by
  have hwindow : c.window rows = rows.take c.maxFrames := if_pos hlimited
  unfold DecodeContext.passes
  rw [hwindow, hlimited, hinfo, Bool.eq_iff_iff, List.length_take]
  simp only [Bool.true_and, Bool.not_true, Bool.or_false, Bool.or_eq_true, decide_eq_true_eq]
  omega

/-- The count check at the end of the stream. -/
theorem Playing.validate {base : List Event} {rows : List (List Sample)} {m : Machine}
    (h : Playing base rows m) (hcomplete : m.context.rangeComplete = false) :
    validatePhysicalEofSampleCount m = (m.context.passes rows,
      if m.context.passes rows then m else m.throwDecode (physicalEofMessage m.context)) := by
  have hpasses : m.context.passes rows = m.context.eofAccepted := by
    unfold DecodeContext.passes DecodeContext.eofAccepted
    rw [← h.complete, hcomplete, h.emitted, Bool.false_or]
  unfold validatePhysicalEofSampleCount
  rw [if_neg (by simp [exceptionCheck, h.unpending]), hpasses]
  cases m.context.eofAccepted <;> rfl

/-- How a processing loop ends that has handed over `all`, in the context `c` it began with. -/
structure LoopPlayed (c : DecodeContext) (base : List Event) (all rows : List (List Sample))
    (m : Machine) : Prop where
  playing : Playing base rows m
  advances : Advances c m.context
  window : c.window rows = c.window all

section
variable {F : LibFlac D} {J : Jvm} {source : Source} {At : List Frame → Stream D → Prop}

/-- The bounded loop emits the window, and leaves the decoder at some block. -/
theorem Playing.processRange (hquiet : J.Quiet) (hreads : F.Reads J source At)
    {base : List Event} {rest : List Frame} {fuel : ℕ} (hfuel : rest.length < fuel)
    (hfits : ∀ b ∈ rest, b.Fits) {rows : List (List Sample)} {m : Machine}
    (h : Playing base rows m) (hlimited : m.context.rangeLimited = true)
    (hsource : m.context.source = source) {s : Stream D} (hat : At rest s) :
    ∃ rows' s' m', LoopPlayed m.context base (rows ++ rowsOf rest) rows' m' ∧
      processRange F J fuel s m = (some (m.context.passes (rows ++ rowsOf rest)), s',
        if m.context.passes (rows ++ rowsOf rest) then m'
        else m'.throwDecode (physicalEofMessage m'.context)) ∧
      ∃ rest', At rest' s' := by
  induction fuel generalizing rest rows m s with
  | zero => exact absurd hfuel (Nat.not_lt_zero _)
  | succ fuel ih =>
    unfold Decode.processRange
    by_cases hcomplete : m.context.rangeComplete = true
    · -- the rows that are still to come are outside the range
      have hle := (h.complete_iff hlimited).mp hcomplete
      have hpasses : m.context.passes (rows ++ rowsOf rest) = true :=
        DecodeContext.passes_of_complete hlimited (by rw [List.length_append]; omega)
      refine ⟨rows, s, m, ⟨h, .refl _, ?_⟩, ?_, rest, hat⟩
      · unfold DecodeContext.window
        rw [if_pos hlimited, if_pos hlimited, List.take_append_of_le_length hle]
      · rw [if_pos hcomplete, hpasses, if_pos rfl]
    rw [if_neg hcomplete, if_neg (by simp [exceptionCheck, h.unpending])]
    rw [Bool.not_eq_true] at hcomplete
    cases rest with
    | nil =>
      obtain ⟨s', hdelivers, hstate, hat'⟩ := hreads.ended s hat
      obtain ⟨m', hcall, hplaying, hadvances⟩ :=
        h.call hquiet hsource [] (by simp) hdelivers .processSingle
      rw [rowsOf_nil, List.append_nil] at hplaying ⊢
      have hlimited' := hadvances.rangeLimited.trans hlimited
      have hcomplete' : m'.context.rangeComplete = false := by
        rw [hplaying.complete, hlimited', ← hcomplete, h.complete, hlimited]
        obtain ⟨emitted, complete, hcontext⟩ := hadvances
        rw [hcontext]
        rfl
      refine ⟨rows, s', m', ⟨hplaying, hadvances, rfl⟩, ?_, [], hat'⟩
      dsimp only
      rw [hcall]
      dsimp only
      rw [if_neg (by simp [hplaying.error]), if_neg (by simp [exceptionCheck, hplaying.unpending]),
        hstate, hplaying.validate hcomplete', hadvances.passes]
    | cons block rest =>
      rw [List.forall_mem_cons] at hfits
      obtain ⟨s', hdelivers, hstate, hnotAborted, hat'⟩ := hreads.block block rest s hat
      obtain ⟨m', hcall, hplaying, hadvances⟩ :=
        h.call hquiet hsource [block] (by simpa using hfits.1) hdelivers .processSingle
      have hrows : rows ++ rowsOf [block] ++ rowsOf rest = rows ++ rowsOf (block :: rest) := by
        rw [List.append_assoc, rowsOf_cons, rowsOf_cons, rowsOf_nil, List.append_nil]
      obtain ⟨rows', s'', m'', hends, hloop, hposition⟩ :=
        ih (Nat.lt_of_succ_lt_succ hfuel) hfits.2 hplaying
          (hadvances.rangeLimited.trans hlimited) (hadvances.source.trans hsource) hat'
      rw [hrows, hadvances.passes] at hloop
      refine ⟨rows', s'', m'', ⟨hends.playing, hadvances.trans hends.advances, ?_⟩, ?_, hposition⟩
      · rw [← hadvances.window, ← hadvances.window (rows ++ rowsOf (block :: rest)), ← hrows]
        exact hends.window
      · dsimp only
        rw [hcall]
        dsimp only
        rw [if_neg (by simp [hplaying.error]), if_neg (by simp [exceptionCheck, hplaying.unpending])]
        split
        · rename_i hend
          exact absurd hend hstate
        · rename_i habort
          exact absurd habort hnotAborted
        · exact hloop

/-- The unbounded loop emits everything from here on. -/
theorem Playing.processToEnd (hquiet : J.Quiet) (hreads : F.Reads J source At)
    {base : List Event} {rest : List Frame} (hfits : ∀ b ∈ rest, b.Fits)
    {rows : List (List Sample)} {m : Machine} (h : Playing base rows m)
    (hlimited : m.context.rangeLimited = false) (hsource : m.context.source = source)
    {s : Stream D} (hat : At rest s) :
    ∃ s' m', LoopPlayed m.context base (rows ++ rowsOf rest) (rows ++ rowsOf rest) m' ∧
      processToEnd F J s m = (some (m.context.passes (rows ++ rowsOf rest)), s',
        if m.context.passes (rows ++ rowsOf rest) then m'
        else m'.throwDecode (physicalEofMessage m'.context)) ∧
      At [] s' := by
  obtain ⟨s', hdelivers, hstate, hat'⟩ := hreads.stream rest s hat
  obtain ⟨m', hcall, hplaying, hadvances⟩ :=
    h.call hquiet hsource rest hfits hdelivers .processUntilEndOfStream
  have hcomplete := hplaying.unlimited (hadvances.rangeLimited.trans hlimited)
  refine ⟨s', m', ⟨hplaying, hadvances, rfl⟩, ?_, hat'⟩
  unfold Decode.processToEnd
  dsimp only
  rw [hcall]
  dsimp only
  rw [if_neg (by simp [hplaying.error, exceptionCheck, hplaying.unpending]),
    if_neg (by simp [hstate]), hplaying.validate hcomplete, hadvances.passes]

/-- Either loop emits the window of what is to come, and fails when it is too short. -/
theorem Playing.processDecodeStream (hquiet : J.Quiet) (hreads : F.Reads J source At)
    {base : List Event} {rest : List Frame} {fuel : ℕ} (hfuel : rest.length < fuel)
    (hfits : ∀ b ∈ rest, b.Fits) {rows : List (List Sample)} {m : Machine}
    (h : Playing base rows m) (hplain : m.context.decodeChainedOgg = false)
    (hsource : m.context.source = source) {s : Stream D} (hat : At rest s) :
    ∃ rows' s' m', LoopPlayed m.context base (rows ++ rowsOf rest) rows' m' ∧
      processDecodeStream F J fuel s m = (some (m.context.passes (rows ++ rowsOf rest)), s',
        if m.context.passes (rows ++ rowsOf rest) then m'
        else m'.throwDecode (physicalEofMessage m'.context)) ∧
      ∃ rest', At rest' s' := by
  unfold Decode.processDecodeStream
  by_cases hlimited : m.context.rangeLimited = true
  · rw [if_pos hlimited]
    exact h.processRange hquiet hreads hfuel hfits hlimited hsource hat
  · rw [if_neg hlimited, if_neg (by simp [hplain])]
    rw [Bool.not_eq_true] at hlimited
    obtain ⟨s', m', hends, hloop, hat'⟩ :=
      h.processToEnd hquiet hreads hfits hlimited hsource hat
    exact ⟨_, s', m', hends, hloop, [], hat'⟩

/-- All declared audio passes. -/
theorem DecodeContext.passes_of_declared {c : DecodeContext} {rows : List (List Sample)}
    (h : c.streamTotalSamples ≤ c.firstSample + rows.length) : c.passes rows = true := by
  by_cases hlimited : c.rangeLimited = true
  · by_cases hle : c.maxFrames ≤ rows.length
    · exact passes_of_complete hlimited hle
    · have hrest : c.streamTotalSamples - c.firstSample ≤ (c.window rows).length := by
        unfold DecodeContext.window
        rw [if_pos hlimited, List.take_of_length_le (by omega)]
        omega
      unfold DecodeContext.passes
      rw [decide_eq_true hrest, Bool.or_true]
  · have hrest : c.streamTotalSamples - c.firstSample ≤ (c.window rows).length := by
      unfold DecodeContext.window
      rw [if_neg hlimited]
      omega
    unfold DecodeContext.passes
    rw [decide_eq_true hrest, Bool.or_true]

end

/-! ## Seeking -/

section
variable {F : LibFlac D} {J : Jvm} {source : Source} {blocks : List Frame}
  {At : List Frame → Stream D → Prop}

/-- A seek that hands over a block, and then the processing loop. -/
theorem Playing.seekBlock (hquiet : J.Quiet) (hreads : F.Reads J source At) {base : List Event}
    {m : Machine} (h : Playing base [] m) (hplain : m.context.decodeChainedOgg = false)
    (hsource : m.context.source = source) {s s₁ : Stream D} {sample : ℕ} {block : Frame}
    {after : List Frame}
    (hdelivers : Delivers J source (F.seekAbsolute s.decoder sample) s.transportCalls [.pcm block]
      true s₁)
    (hat : At after s₁) {fuel : ℕ} (hfuel : after.length < fuel)
    (hfits : ∀ b ∈ block :: after, b.Fits) :
    ∃ m₁ rows s₂ m₂,
      F.call J .seekAbsolute (F.seekAbsolute s.decoder sample) s.transportCalls m =
        (true, s₁, m₁) ∧
      m₁.pending = none ∧ m₁.context.sawError = false ∧
      LoopPlayed m.context base (rowsOf (block :: after)) rows m₂ ∧
      Decode.processDecodeStream F J fuel s₁ m₁ =
        (some (m.context.passes (rowsOf (block :: after))), s₂,
          if m.context.passes (rowsOf (block :: after)) then m₂
          else m₂.throwDecode (physicalEofMessage m₂.context)) ∧
      ∃ rest', At rest' s₂ := by
  rw [List.forall_mem_cons] at hfits
  obtain ⟨m₁, hcall, hplaying, hadvances⟩ :=
    h.call hquiet hsource [block] (by simpa using hfits.1) hdelivers .seekAbsolute
  have hall : [] ++ rowsOf [block] ++ rowsOf after = rowsOf (block :: after) := by
    rw [rowsOf_cons, rowsOf_cons, rowsOf_nil, List.append_nil, List.nil_append]
  have hplain₁ : m₁.context.decodeChainedOgg = false := by
    obtain ⟨emitted, complete, hcontext⟩ := hadvances
    rw [hcontext]
    exact hplain
  obtain ⟨rows, s₂, m₂, hends, hloop, hposition⟩ :=
    hplaying.processDecodeStream hquiet hreads hfuel hfits.2 hplain₁
      (hadvances.source.trans hsource) hat
  rw [hall] at hends hloop
  rw [hadvances.passes] at hloop
  refine ⟨m₁, rows, s₂, m₂, hcall, hplaying.unpending, hplaying.error,
    ⟨hends.playing, hadvances.trans hends.advances, ?_⟩, hloop, hposition⟩
  rw [← hadvances.window, ← hadvances.window (rowsOf (block :: after))]
  exact hends.window

/-- A seek into the stream, and then the processing loop. -/
theorem Playing.seek (hquiet : J.Quiet) (hreads : F.Seekable J source blocks At)
    {base : List Event} {fuel : ℕ} (hfuel : blocks.length < fuel) (hfits : ∀ b ∈ blocks, b.Fits)
    {m : Machine} (h : Playing base [] m) (hplain : m.context.decodeChainedOgg = false)
    (hsource : m.context.source = source) {rest : List Frame} {s : Stream D} (hat : At rest s)
    {sample : ℕ} (hsample : sample < (rowsOf blocks).length)
    (hfirst : m.context.firstSample = sample)
    (htotal : m.context.streamTotalSamples = (rowsOf blocks).length) :
    ∃ s₁ m₁ rows s₂ m₂,
      F.call J .seekAbsolute (F.seekAbsolute s.decoder sample) s.transportCalls m =
        (true, s₁, m₁) ∧
      m₁.pending = none ∧ m₁.context.sawError = false ∧
      LoopPlayed m.context base ((rowsOf blocks).drop sample) rows m₂ ∧
      Decode.processDecodeStream F J fuel s₁ m₁ = (some true, s₂, m₂) ∧
      ∃ rest', At rest' s₂ := by
  obtain ⟨⟨block, after⟩, hseek⟩ := seekBlocks_of_lt hsample
  obtain ⟨s₁, hdelivers, hat₁⟩ := hreads.seek rest s sample block after hat hseek
  obtain ⟨m₁, rows, s₂, m₂, hcall, hnone, herror, hends, hloop, hposition⟩ :=
    h.seekBlock hquiet hreads.toReads hplain hsource hdelivers hat₁
      (Nat.lt_trans (seekBlocks_length hseek) hfuel) (seekBlocks_fits hfits hseek)
  rw [rowsOf_seekBlocks hseek] at hends hloop
  have hpasses : m.context.passes ((rowsOf blocks).drop sample) = true :=
    DecodeContext.passes_of_declared (by rw [List.length_drop, hfirst, htotal]; omega)
  rw [hpasses, if_pos rfl] at hloop
  exact ⟨s₁, m₁, rows, s₂, m₂, hcall, hnone, herror, hends, hloop, hposition⟩

end

end JFlac.Decode
