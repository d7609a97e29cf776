import JFlac.Decode.Opening
import JFlac.Decode.Pull
import JFlac.Decode.Scripted
import JFlac.Decode.Wrappers

/-!
# Runs of pull reads

A pull session between two reads is described by the rows that are still to come. One read hands
out the next rows, as many as were asked for; a run of reads therefore hands out a prefix of the
stream, whatever the sizes of the requests are.
-/

namespace JFlac.Decode

open Machine Lib

variable {D : Type}

/-! ## One read -/

/-- A pull session between two reads: `before` frames were handed out, `todo` are to come. -/
structure PullReady (At : List Frame → Stream D → Prop) (P : Frame → Prop) (source : Source)
    (width first total limit before : ℕ) (todo : List (List Sample)) (session : Session D) :
    Prop where
  setup : PullSetup source width first total session.machine.context
  emitted : session.machine.context.emittedFrames = before
  come : ToCome At P width limit session.stream session.machine.context todo

/-- The fields `HoldsBack` speaks of. -/
def DecodeContext.pendingFields (c : DecodeContext) : Option (List Sample) × ℕ × ℕ :=
  (c.pullPendingSamples, c.pullPendingSampleCount, c.pullPendingSampleOffset)

theorem HoldsBack.of_fields {width : ℕ} {c c' : DecodeContext} {rows : List (List Sample)}
    (h : HoldsBack width c rows) (hfields : c'.pendingFields = c.pendingFields) :
    HoldsBack width c' rows := by
  simp only [DecodeContext.pendingFields, Prod.mk.injEq] at hfields
  obtain ⟨hpending, hcounted, hstart⟩ := hfields
  cases h with
  | nothing hsamples => exact .nothing (hpending.trans hsamples)
  | block samples rows hsamples hcount hsize hrows hwidth hpos hoffset =>
    exact .block samples rows (hpending.trans hsamples) (hcounted.trans hcount) hsize
      (by rw [hstart]; exact hrows) hwidth hpos (by rw [hstart]; exact hoffset)

theorem ToCome.of_fields {At : List Frame → Stream D → Prop} {P : Frame → Prop}
    {width limit : ℕ} {s : Stream D}
    {c c' : DecodeContext} {todo : List (List Sample)} (h : ToCome At P width limit s c todo)
    (hfields : c'.pendingFields = c.pendingFields)
    (hend : c'.pullEndOfStream = c.pullEndOfStream) : ToCome At P width limit s c' todo := by
  obtain ⟨rows, blocks, hback, hat, hblocks, hlimit, hdone⟩ := h
  exact .intro rows blocks (hback.of_fields hfields) hat hblocks hlimit fun h => hdone (hend ▸ h)

/-- The ways a read of `request` frames can end. -/
inductive ReadResult (J : Jvm) (At : List Frame → Stream D → Prop) (P : Frame → Prop)
    (source : Source) (width first total limit before request : ℕ) (todo : List (List Sample))
    (session : Session D) : PullRead D → Prop
  /-- The next rows were handed out; at the end of the stream there are none. -/
  | filled (read : PullRead D)
      (hvalue : read.value = some (if todo = [] then -1 else ((todo.take request).length : ℤ)))
      (hsamples : read.samples.take ((todo.take request).length * width) =
        (todo.take request).flatten)
      (hrows : HasWidth width (todo.take request))
      (hnone : read.session.machine.pending = none)
      (hready : PullReady At P source width first total limit
        (before + (todo.take request).length) (todo.drop request) read.session)
      (hquiet : Adds (fun e => ∀ exception, e ≠ .raised exception) session.machine
        read.session.machine) :
      ReadResult J At P source width first total limit before request todo session read
  | failed (read : PullRead D) (hvalue : read.value = some 0)
      (hraised : read.session.machine.pending ≠ none)
      (hreason : (∃ history, J.mallocFails history = true) ∨
        EndsShort first total (before + todo.length)) :
      ReadResult J At P source width first total limit before request todo session read
  | odd (read : PullRead D) (frame : Frame) (hblock : P frame) (hframe : frame.channels ≠ width)
      (hrecorded : Records (.writeCallback frame) session.machine read.session.machine) :
      ReadResult J At P source width first total limit before request todo session read

/-- One read of at least one frame, with a buffer that fits the request. -/
theorem readPullDecoderInterleaved_spec {F : LibFlac D} {J : Jvm} {source : Source}
    {At : List Frame → Stream D → Prop} (hsingles : F.Singles J source At) {P : Frame → Prop}
    (hfits : ∀ b, P b → b.Fits) {width first total limit before fuel : ℕ} (hwidth : 0 < width)
    (hfuel : limit < fuel)
    {todo : List (List Sample)} {session : Session D}
    (hready : PullReady At P source width first total limit before todo session)
    {samples : List Sample} {maxFrames : ℤ} (hpos : 0 < maxFrames)
    (hbuffer : maxFrames.toNat * width ≤ samples.length) (hsize : samples.length ≤ intMax) :
    ReadResult J At P source width first total limit before maxFrames.toNat todo session
      (readPullDecoderInterleaved F J fuel samples maxFrames session) := by
  have hsetup := hready.setup
  have hrequest : maxFrames.toNat * width ≤ intMax := by omega
  have hrequestPos : 0 < maxFrames.toNat := by omega
  obtain ⟨rows, blocks, hback, hat, hblocks, hlimit, hdone⟩ := hready.come
  -- the context at the start of the read
  generalize hstart : session.machine.enter.context.startPull samples maxFrames.toNat = c
  have hc : c = session.machine.context.startPull samples maxFrames.toNat := hstart.symm
  have hcSetup : PullSetup source width first total c := by
    rw [hc]
    exact ⟨hsetup.pull, hsetup.plain, hsetup.source, hsetup.first, hsetup.info, hsetup.channels,
      hsetup.total⟩
  have hcReading : Reading width maxFrames.toNat before [] c := by
    rw [hc]
    refine ⟨hsetup.channels, rfl, rfl, hready.emitted, Nat.zero_le _, .nil, samples, rfl, rfl,
      hbuffer, ?_⟩
    simp
  have hcBack : HoldsBack width c rows := by
    rw [hc]
    exact hback.of_fields rfl
  have hcError : c.sawError = false := by rw [hc]; rfl
  have hcEnd : c.pullEndOfStream = session.machine.context.pullEndOfStream := by rw [hc]; rfl
  -- draining what is held back, then the loop
  obtain ⟨c₁, hdrain, hread, hrest, hfields⟩ := drainDecodePullPending_reading
    (m := session.machine.enter.withContext c) rfl hwidth hrequest hcReading hcBack
  have hdrainSetup := drainDecodePullPending_setup (session.machine.enter.withContext c)
  rw [hdrain] at hdrainSetup
  have hloop : PullLoop J At P source width first total limit maxFrames.toNat before []
      (rows ++ rowsOf blocks) (session.machine.enter.withContext c)
      (pullLoop F J fuel session.stream
        ((session.machine.enter.withContext c).withContext c₁)) := by
    have hadds : Adds (fun e => ∀ exception, e ≠ .raised exception)
        (session.machine.enter.withContext c)
        ((session.machine.enter.withContext c).withContext c₁) := .of_history rfl
    refine PullLoop.of_block hadds ?_
    refine pullLoop_spec hsingles hfits hrequest rfl ((congrArg (·.1) hfields).trans hcError)
      (hcSetup.of_fields hdrainSetup hfields) hread hrest hat hblocks hlimit
      (Nat.lt_of_le_of_lt hlimit hfuel) (fun h => ?_) ?_
    · have hsame : c₁.pullEndOfStream = c.pullEndOfStream := congrArg (·.2.2.2.2) hfields
      obtain ⟨rfl, rfl⟩ := hdone (by rw [← hcEnd, ← hsame]; exact h)
      simp
    · simp only [List.nil_append, List.length_take, List.length_nil, Nat.sub_zero]
      rcases Nat.le_total rows.length maxFrames.toNat with hle | hle
      · exact .inl (List.drop_eq_nil_of_le hle)
      · exact .inr (Nat.min_eq_left hle)
  -- the guards of the read let it through
  unfold readPullDecoderInterleaved
  dsimp only
  have hmode : (!session.machine.enter.context.pullMode ||
      !session.machine.enter.context.sawStreamInfo) = false := by
    have hpull : session.machine.enter.context.pullMode = true := hsetup.pull
    have hinfo : session.machine.enter.context.sawStreamInfo = true := hsetup.info
    rw [hpull, hinfo]
    rfl
  have hchannels : session.machine.enter.context.streamInfo.channels = width := hsetup.channels
  rw [if_neg (by omega), if_neg (by omega), if_neg (by simp [hmode]), hchannels,
    if_neg (by omega), hstart, hdrain]
  dsimp only
  rw [if_neg (by simp)]
  generalize pullLoop F J fuel session.stream _ = r at hloop
  cases hloop with
  | left s' m' hnone hsetup' hreading' hcome' hend' hquiet =>
    simp only [List.nil_append, List.length_nil, Nat.sub_zero] at hreading' hcome' hend'
    refine .filled _ ?_ ?_ hreading'.rows hnone ⟨?_, ?_, ?_⟩ (hquiet.trans (.of_history rfl))
    · show some _ = some _
      rw [hreading'.written]
      by_cases hempty : rows ++ rowsOf blocks = []
      · rw [hempty] at hend' ⊢
        rw [if_neg (by simp), if_pos (hend' (by simpa using hrequestPos)), if_pos rfl]
      · have hlength : 0 < ((rows ++ rowsOf blocks).take maxFrames.toNat).length := by
          have hsome := List.length_pos_iff.mpr hempty
          rw [List.length_take]
          omega
        rw [if_pos hlength, if_neg hempty]
    · obtain ⟨out, hout, -, -, htake⟩ := hreading'.output
      show (m'.context.pullOutput.getD samples).take _ = _
      rw [hout, Option.getD_some, htake]
    · exact hsetup'.of_fields rfl rfl
    · exact hreading'.emitted
    · exact hcome'.of_fields rfl rfl
  | failed s' m' hraised hreason => exact .failed _ rfl hraised (by simpa using hreason)
  | odd r frame hblock hframe hrecorded =>
    obtain ⟨_ | _ | _, s', m'⟩ := r
    · exact .odd _ frame hblock hframe hrecorded
    · exact .odd _ frame hblock hframe hrecorded
    · exact .odd _ frame hblock hframe hrecorded

/-! ## The session after opening -/

/-- A pull context from which nothing was read yet. -/
structure Unread (c : DecodeContext) : Prop where
  pull : c.pullMode = true
  plain : c.decodeChainedOgg = false
  first : c.firstSample = 0
  emitted : c.emittedFrames = 0
  back : c.pullPendingSamples = none
  live : c.pullEndOfStream = false
  total : c.sawStreamInfo = true → c.streamTotalSamples = c.streamInfo.totalSamples

theorem unread_openContext (source : Source) : Unread ((openContext true).withSource source) :=
  ⟨rfl, rfl, rfl, rfl, rfl, rfl, nofun⟩

/-- Before the first block, callbacks only store STREAMINFO and errors. -/
theorem Unread.handle {m : Machine} (h : Unread m.context) (J : Jvm) (callback : Callback)
    (hcallback : ∀ frame, callback ≠ .write frame) (calls : List TransportCall) :
    Unread (handle J callback (m, calls)).2.1.context := by
  cases callback with
  | write frame => exact absurd rfl (hcallback frame)
  | error status => exact ⟨h.pull, h.plain, h.first, h.emitted, h.back, h.live, h.total⟩
  | transport callback =>
    have hsame : (JFlac.Decode.handle J (.transport callback) (m, calls)).2.1.context =
        m.context := (handleTransport_step J callback m calls).context
    rw [hsame]
    exact h
  | metadata block =>
    have hstep := decodeMetadataCallback_step J block (m.record (.metadataCallback block))
    show Unread (decodeMetadataCallback J block (m.record (.metadataCallback block))).context
    generalize decodeMetadataCallback J block (m.record (.metadataCallback block)) = m' at hstep
    have hchained : (m.record (.metadataCallback block)).context.decodeChainedOgg ≠ true := by
      simp [h.plain]
    cases hstep with
    | ignored => exact h
    | laterLink _ hchained' => exact absurd hchained' hchained
    | mismatch _ hchained' => exact absurd hchained' hchained
    | firstLink _ _ _ hchained' => exact absurd hchained' hchained
    | stored info events after _ hcalls =>
      exact ⟨h.pull, h.plain, h.first, h.emitted, h.back, h.live, fun _ => rfl⟩

theorem Unread.call {F : LibFlac D} (hmetadata : F.MetadataOnly) (J : Jvm) (decoder : D)
    (calls : List TransportCall) {m : Machine} (h : Unread m.context) :
    Unread (F.call J .processUntilEndOfMetadata (F.processUntilEndOfMetadata decoder) calls
      m).2.2.context := by
  show Unread ((F.processUntilEndOfMetadata decoder).run (JFlac.Decode.handle J)
    (m, calls)).2.1.context
  exact Lib.Calls.run_invariant_of_requests
    (P := fun s : Machine × List TransportCall => Unread s.1.context)
    (fun callback s hcallback hs => hs.handle J callback hcallback s.2) _ (hmetadata decoder) h

/-- An opened pull session is in the context that the metadata pass left. -/
structure Opened (F : LibFlac D) (J : Jvm) (session : Session D) (source : Source) (before : Machine)
    (decoder : D) (calls : List TransportCall) : Prop where
  start : before.context = (openContext true).withSource source
  context : session.machine.context = (F.call J .processUntilEndOfMetadata
    (F.processUntilEndOfMetadata decoder) calls before).2.2.context
  info : session.machine.context.sawStreamInfo = true

theorem openPullDecoderInternal_opened {F : LibFlac D} {J : Jvm} {transport : Transport}
    {container : ℤ} {m m' : Machine} {session : Session D} (hnone : m.pending = none)
    (hopen : openPullDecoderInternal F J transport container m = (some session, m')) :
    ∃ source before decoder calls, Opened F J session source before decoder calls := by
  unfold openPullDecoderInternal at hopen
  split at hopen
  · cases hopen
  split at hopen
  · cases hopen
  obtain ⟨source, htransport⟩ := preparePullTransport_prepares J transport
    (m := m.withContext (openContext true)) hnone
  generalize preparePullTransport J transport _ = prepared at htransport hopen
  obtain ⟨success, m₁, calls⟩ := prepared
  cases success with
  | false => cases hopen
  | true =>
    have hcontext : m₁.context = (openContext true).withSource source := htransport.context rfl
    dsimp only at hopen
    split at hopen
    · cases hopen
    rename_i decoder _
    unfold readSessionMetadata at hopen
    generalize hmetadata : F.call J .processUntilEndOfMetadata _ calls m₁ = metadata at hopen
    dsimp only at hopen
    by_cases hpending : metadata.2.2.exceptionCheck = true
    · rw [if_pos hpending] at hopen
      cases hopen
    rw [if_neg hpending] at hopen
    by_cases hfailed : (!metadata.1 || metadata.2.2.context.sawError) = true
    · rw [if_pos hfailed] at hopen
      cases hopen
    rw [if_neg hfailed] at hopen
    dsimp only at hopen
    by_cases hinfo : metadata.2.2.context.sawStreamInfo = true
    swap
    · rw [if_pos (by simpa using hinfo)] at hopen
      cases hopen
    rw [if_neg (by simp [hinfo])] at hopen
    unfold registerDecodeSession at hopen
    by_cases hmalloc : J.mallocFails metadata.2.2.history = true
    · rw [if_pos hmalloc] at hopen
      cases hopen
    rw [if_neg hmalloc] at hopen
    dsimp only at hopen
    have hresultContext : (metadata.2.2.callJavaObject J
        (.newPullDecoderOpenResult metadata.2.2.context.streamInfo)).2.context =
          metadata.2.2.context := callJava_context J _ _
    generalize metadata.2.2.callJavaObject J _ = result at hopen hresultContext
    by_cases hresult : result.1 = true
    · rw [if_pos hresult] at hopen
      cases hopen
      refine ⟨source, m₁, decoder, calls, hcontext, ?_, ?_⟩
      · rw [hmetadata]
        exact hresultContext
      · rw [hresultContext]
        exact hinfo
    · rw [if_neg hresult] at hopen
      cases hopen

theorem openPullDecoder_opened {F : LibFlac D} {J : Jvm} {transport : Transport} {source : Bool}
    {container : ℤ} {m : Machine} {session : Session D}
    (hopen : openPullDecoder F J transport source container = (some session, m)) :
    ∃ source before decoder calls, Opened F J session source before decoder calls := by
  unfold openPullDecoder at hopen
  dsimp only at hopen
  split at hopen
  · cases hopen
  split at hopen
  · cases hopen
  split at hopen
  · obtain ⟨hpath, -, hnone, -⟩ | ⟨hpath, -⟩ :=
      jstringToUtf8_cases J (m := .start) rfl "Failed to encode file path to UTF-8."
    · rw [if_neg (by simp [hpath])] at hopen
      exact openPullDecoderInternal_opened hnone hopen
    · rw [if_pos (by simp [hpath])] at hopen
      cases hopen
  · exact openPullDecoderInternal_opened rfl hopen

/-- An opened pull session has STREAMINFO and has handed out nothing. -/
theorem openPullDecoder_unread {F : LibFlac D} (hmetadata : F.MetadataOnly) {J : Jvm}
    {transport : Transport} {source : Bool} {container : ℤ} {m : Machine} {session : Session D}
    (hopen : openPullDecoder F J transport source container = (some session, m)) :
    Unread session.machine.context ∧ session.machine.context.sawStreamInfo = true := by
  obtain ⟨source, before, decoder, calls, hopened⟩ := openPullDecoder_opened hopen
  have hunread := Unread.call hmetadata J decoder calls (m := before)
    (by rw [hopened.start]; exact unread_openContext source)
  rw [← hopened.context] at hunread
  exact ⟨hunread, hopened.info⟩

/-- The opened session in front of its first block. -/
theorem PullReady.opened {F : LibFlac D} (hmetadata : F.MetadataOnly) {J : Jvm}
    {transport : Transport} {source : Bool} {container : ℤ} {m : Machine} {session : Session D}
    (hopen : openPullDecoder F J transport source container = (some session, m))
    {At : List Frame → Stream D → Prop} {P : Frame → Prop} {blocks : List Frame}
    (hat : At blocks session.stream) (hblocks : ∀ b ∈ blocks, P b) :
    PullReady At P session.machine.context.source session.machine.context.streamInfo.channels 0
      session.machine.context.streamInfo.totalSamples blocks.length 0 (rowsOf blocks) session := by
  obtain ⟨hunread, hinfo⟩ := openPullDecoder_unread hmetadata hopen
  refine ⟨⟨hunread.pull, hunread.plain, rfl, hunread.first, hinfo, rfl, hunread.total hinfo⟩,
    hunread.emitted, ?_⟩
  have hcome : ToCome At P session.machine.context.streamInfo.channels blocks.length
      session.stream session.machine.context ([] ++ rowsOf blocks) :=
    .intro [] blocks (.nothing hunread.back) hat hblocks (Nat.le_refl _) fun h => by
      rw [hunread.live] at h
      cases h
  simpa using hcome

/-! ## A run of reads -/

/-- A run of native reads, each given its array and its `maxFrames`. -/
def pullReads (F : LibFlac D) (J : Jvm) (fuel : ℕ) :
    Session D → List (List Sample × ℤ) → List (PullRead D) × Session D
  | session, [] => ([], session)
  | session, (samples, maxFrames) :: requests =>
    let read := readPullDecoderInterleaved F J fuel samples maxFrames session
    let rest := pullReads F J fuel read.session requests
    (read :: rest.1, rest.2)

/-- The samples a read hands out: the first `n * width` ints when it returns `n > 0`. -/
def PullRead.output (width : ℕ) (read : PullRead D) : List Sample :=
  read.samples.take ((read.value.getD 0).toNat * width)

/-- The array holds the frames asked for. -/
def FitsRequest (width : ℕ) (request : List Sample × ℤ) : Prop :=
  request.2.toNat * width ≤ request.1.length ∧ request.1.length ≤ intMax

/-- The text of the branch of the write callback that a correct decoder never reaches. -/
def stillPendingMessage : String :=
  "Pull decoder still has pending PCM before receiving a new block."

/-- A read of a stream whose blocks all fit it: the rows handed out, and what is left. -/
structure ReadExact (At : List Frame → Stream D → Prop) (P : Frame → Prop) (source : Source)
    (width first total limit before : ℕ) (todo : List (List Sample)) (maxFrames : ℤ)
    (session : Session D) (read : PullRead D) : Prop where
  ready : PullReady At P source width first total limit
    (before + (todo.take maxFrames.toNat).length) (todo.drop maxFrames.toNat) read.session
  output : read.output width = (todo.take maxFrames.toNat).flatten
  value : 0 < maxFrames →
    read.value = some (if todo = [] then -1 else ((todo.take maxFrames.toNat).length : ℤ))
  nothing : maxFrames ≤ 0 → read.value = some 0
  returns : 0 ≤ maxFrames → read.session.machine.pending = none
  unraised : Adds (fun e => e ≠ .raised (.flacDecodeException stillPendingMessage))
    session.machine read.session.machine

theorem readPullDecoderInterleaved_exact {F : LibFlac D} {J : Jvm}
    (hmalloc : ∀ history, J.mallocFails history = false) {source : Source}
    {At : List Frame → Stream D → Prop} (hsingles : F.Singles J source At)
    {width total limit before fuel : ℕ} (hwidth : 0 < width) (hfuel : limit < fuel)
    {todo : List (List Sample)} {session : Session D}
    (hready : PullReady At (fun b => b.Fits ∧ b.channels = width) source width 0 total limit before
      todo session)
    (htotal : total = 0 ∨ total = before + todo.length) {samples : List Sample} {maxFrames : ℤ}
    (hbuffer : FitsRequest width (samples, maxFrames)) :
    ReadExact At (fun b => b.Fits ∧ b.channels = width) source width 0 total limit before todo
      maxFrames session (readPullDecoderInterleaved F J fuel samples maxFrames session) := by
  by_cases hpos : 0 < maxFrames
  · have hread := readPullDecoderInterleaved_spec hsingles (fun _ h => h.1) hwidth hfuel hready hpos
      hbuffer.1 hbuffer.2
    generalize readPullDecoderInterleaved F J fuel samples maxFrames session = read at hread
    cases hread with
    | filled hvalue hsamples hrows hnone hready' hquiet =>
      refine ⟨hready', ?_, fun _ => hvalue, fun h => by omega, fun _ => hnone,
        hquiet.mono fun e h => h _⟩
      have hcount : (read.value.getD 0).toNat = (todo.take maxFrames.toNat).length := by
        rw [hvalue, Option.getD_some]
        by_cases hempty : todo = []
        · simp [hempty]
        · rw [if_neg hempty, Int.toNat_natCast]
      rw [PullRead.output, hcount, hsamples]
    | failed hvalue hraised hreason =>
      rcases hreason with ⟨history, hfails⟩ | ⟨htotalPos, -, hshort⟩
      · rw [hmalloc] at hfails
        cases hfails
      · omega
    | odd frame hblock hframe hrecorded => exact absurd hblock.2 hframe
  · -- no frame is asked for: the session stays as it is
    have hzero : maxFrames.toNat = 0 := by omega
    have hready' : ∀ m : Machine, m.context = session.machine.context →
        PullReady At (fun b => b.Fits ∧ b.channels = width) source width 0 total limit before todo
          ⟨session.stream, m⟩ := fun m hm =>
      ⟨by rw [hm]; exact hready.setup, by rw [hm]; exact hready.emitted,
        by rw [hm]; exact hready.come⟩
    unfold readPullDecoderInterleaved
    dsimp only
    by_cases hneg : maxFrames < 0
    · rw [if_pos hneg]
      refine ⟨?_, by simp [PullRead.output, hzero], fun h => absurd h hpos, fun _ => rfl,
        fun h => by omega, .single rfl (by simp)⟩
      simpa [hzero] using hready' _ (throwIllegalArgument_context session.machine.enter _)
    · rw [if_neg hneg, if_pos (by omega)]
      refine ⟨?_, by simp [PullRead.output, hzero], fun h => absurd h hpos, fun _ => rfl,
        fun _ => rfl, .of_history rfl⟩
      simpa [hzero] using hready' session.machine.enter rfl

/-- A run of reads cuts the rows to come in two. -/
theorem pullReads_exact {F : LibFlac D} {J : Jvm}
    (hmalloc : ∀ history, J.mallocFails history = false) {source : Source}
    {At : List Frame → Stream D → Prop} (hsingles : F.Singles J source At)
    {width total limit before fuel : ℕ} (hwidth : 0 < width) (hfuel : limit < fuel)
    (requests : List (List Sample × ℤ)) (hbuffers : ∀ r ∈ requests, FitsRequest width r)
    {todo : List (List Sample)} {session : Session D}
    (hready : PullReady At (fun b => b.Fits ∧ b.channels = width) source width 0 total limit before
      todo session)
    (htotal : total = 0 ∨ total = before + todo.length) :
    ∃ handed rest, todo = handed ++ rest ∧
      PullReady At (fun b => b.Fits ∧ b.channels = width) source width 0 total limit
        (before + handed.length) rest (pullReads F J fuel session requests).2 ∧
      (pullReads F J fuel session requests).1.flatMap (PullRead.output width) = handed.flatten ∧
      (∀ read ∈ (pullReads F J fuel session requests).1, read.value = some (-1) → rest = []) ∧
      Adds (fun e => e ≠ .raised (.flacDecodeException stillPendingMessage)) session.machine
        (pullReads F J fuel session requests).2.machine := by
  induction requests generalizing before todo session with
  | nil => exact ⟨[], todo, rfl, hready, rfl, by simp [pullReads], .refl _⟩
  | cons request requests ih =>
    obtain ⟨samples, maxFrames⟩ := request
    have hread := readPullDecoderInterleaved_exact hmalloc hsingles hwidth hfuel hready htotal
      (hbuffers _ List.mem_cons_self)
    unfold pullReads
    generalize readPullDecoderInterleaved F J fuel samples maxFrames session = read at hread
    have hsplit : todo = todo.take maxFrames.toNat ++ todo.drop maxFrames.toNat :=
      (List.take_append_drop _ _).symm
    have hlength : todo.length =
        (todo.take maxFrames.toNat).length + (todo.drop maxFrames.toNat).length := by
      rw [← List.length_append, ← hsplit]
    obtain ⟨handed, rest, hrest, hready', houtput, hended, hunraised⟩ := ih
      (fun r hr => hbuffers r (List.mem_cons_of_mem _ hr)) hread.ready (by omega)
    refine ⟨todo.take maxFrames.toNat ++ handed, rest, ?_, ?_, ?_, ?_,
      hread.unraised.trans hunraised⟩
    · rw [List.append_assoc, ← hrest]
      exact hsplit
    · rw [List.length_append, ← Nat.add_assoc]
      exact hready'
    · rw [List.flatMap_cons, hread.output, houtput, List.flatten_append]
    · intro r hr hvalue
      rcases List.mem_cons.mp hr with rfl | hr
      · -- a first read that reports the end leaves nothing
        by_cases hpos : 0 < maxFrames
        · have hempty : todo = [] := by
            by_contra hne
            rw [hread.value hpos, if_neg hne] at hvalue
            have := Option.some.inj hvalue
            omega
          rw [hempty, List.drop_nil] at hrest
          exact (List.append_eq_nil_iff.mp hrest.symm).2
        · rw [hread.nothing (by omega)] at hvalue
          cases hvalue
      · exact hended r hr hvalue

/-- Pull decoding is exact: whatever the sizes of the reads, what they hand out is a prefix of the
stream and all of it once a read reports the end, no read of at least one frame comes back empty,
and the end is final. -/
theorem pullDecoding_exact {F : LibFlac D} {J : Jvm} (hmetadata : F.MetadataOnly)
    (hmalloc : ∀ history, J.mallocFails history = false) {transport : Transport} {source : Bool}
    {container : ℤ} {session : Session D} {m : Machine}
    (hopen : openPullDecoder F J transport source container = (some session, m))
    {At : List Frame → Stream D → Prop}
    (hsingles : F.Singles J session.machine.context.source At) {blocks : List Frame}
    (hat : At blocks session.stream) {channels : ℕ}
    (hchannels : session.machine.context.streamInfo.channels = channels) (hpos : 1 ≤ channels)
    (hblocks : ∀ b ∈ blocks, b.Fits ∧ b.channels = channels)
    (htotal : session.machine.context.streamInfo.totalSamples = 0 ∨
      session.machine.context.streamInfo.totalSamples = (blocks.map Frame.blocksize).sum)
    {fuel : ℕ} (hfuel : blocks.length < fuel) (requests : List (List Sample × ℤ))
    (hbuffers : ∀ r ∈ requests, FitsRequest channels r) (samples : List Sample) (maxFrames : ℤ)
    (hbuffer : FitsRequest channels (samples, maxFrames)) :
    let run := pullReads F J fuel session requests
    let handed := run.1.flatMap (PullRead.output channels)
    let read := readPullDecoderInterleaved F J fuel samples maxFrames run.2
    handed <+: (rowsOf blocks).flatten ∧
    (0 < maxFrames → read.session.machine.pending = none ∧
      ((read.value = some (-1) ∧ handed = (rowsOf blocks).flatten) ∨
        ∃ n, read.value = some n ∧ 1 ≤ n ∧ n ≤ maxFrames)) ∧
    ((∃ r ∈ run.1, r.value = some (-1)) → 0 < maxFrames → read.value = some (-1)) ∧
    Adds (fun e => e ≠ .raised (.flacDecodeException stillPendingMessage)) session.machine
      read.session.machine := by
  intro run handed read
  subst hchannels
  have hready := PullReady.opened hmetadata hopen hat hblocks
  rw [← length_rowsOf] at htotal
  obtain ⟨taken, rest, hsplit, hready', houtput, hended, hunraised⟩ :=
    pullReads_exact hmalloc hsingles hpos hfuel requests hbuffers hready (by simpa using htotal)
  have hhanded : handed = taken.flatten := houtput
  have hlength : (rowsOf blocks).length = taken.length + rest.length := by
    rw [hsplit, List.length_append]
  have hread : ReadExact _ _ _ _ _ _ _ _ _ _ run.2 read :=
    readPullDecoderInterleaved_exact hmalloc hsingles hpos hfuel hready' (by omega) hbuffer
  refine ⟨?_, fun hmax => ⟨hread.returns (by omega), ?_⟩, ?_, hunraised.trans hread.unraised⟩
  · rw [hhanded, hsplit, List.flatten_append]
    exact List.prefix_append _ _
  · have hvalue := hread.value hmax
    by_cases hempty : rest = []
    · left
      rw [if_pos hempty] at hvalue
      refine ⟨hvalue, ?_⟩
      rw [hhanded, hsplit, hempty, List.append_nil]
    · right
      rw [if_neg hempty] at hvalue
      have hrest := List.length_pos_iff.mpr hempty
      rw [List.length_take] at hvalue
      exact ⟨_, hvalue, by omega, by omega⟩
  · rintro ⟨r, hr, hvalue⟩ hmax
    have hempty := hended r hr hvalue
    rw [hread.value hmax, if_pos hempty]

/-- Two stereo blocks read two frames at a time. -/
def stereoInfo : StreamInfo := { StreamInfo.zero with channels := 2, totalSamples := 5 }

def stereoBlocks : List Frame :=
  [silentFrame 2 3 two_lt_uint32 (by decide), silentFrame 2 2 two_lt_uint32 two_lt_uint32]

def stereo : LibFlac Scripted :=
  scripted (⟨[.metadata (.streamInfo stereoInfo)], true, .other⟩ :: stereoBlocks.map Script.block)

theorem pullDecoding_exact_stereo :
    ∃ session m, openPullDecoder stereo quietJvm .file true 0 = (some session, m) ∧
      ((pullReads stereo quietJvm 3 session
        (List.replicate 4 (List.replicate 4 1, 2))).1.map PullRead.value) =
          [some 2, some 2, some 1, some (-1)] ∧
      (pullReads stereo quietJvm 3 session
        (List.replicate 4 (List.replicate 4 1, 2))).1.flatMap (PullRead.output 2) <+:
          (rowsOf stereoBlocks).flatten := by
  refine ⟨_, _, rfl, by decide +kernel, ?_⟩
  have hfits : FitsRequest 2 (List.replicate 4 1, 2) := ⟨by decide, by decide⟩
  have hrequests : ∀ r ∈ List.replicate 4 (List.replicate 4 1, 2), FitsRequest 2 r := by
    intro r hr
    rw [List.eq_of_mem_replicate hr]
    exact hfits
  have hblocks : ∀ b ∈ stereoBlocks, b.Fits ∧ b.channels = 2 := by
    intro b hb
    simp only [stereoBlocks, List.mem_cons, List.not_mem_nil, or_false] at hb
    rcases hb with rfl | rfl <;> exact ⟨⟨by decide, by decide, by decide⟩, rfl⟩
  exact (pullDecoding_exact (scripted_metadataOnly _) (fun _ => rfl)
    (rfl : openPullDecoder stereo quietJvm .file true 0 = _) (scripted_singles _ _ _)
    (rfl : _ = stereoBlocks.map Script.block) rfl (by decide : 1 ≤ 2) hblocks (.inr rfl)
    (by decide : stereoBlocks.length < 3) _ hrequests _ _ hfits).1

end JFlac.Decode
