import JFlac.Decode.PullReads

/-!
# The channel layout of pull reads

The write callback of a pull decoder takes the channel count of each block at face value, and the
next read counts in STREAMINFO channels again. As long as every block handed over has the channel
count of STREAMINFO the counts agree; the first block that differs may be handed out miscounted.
-/

namespace JFlac.Decode

open Machine Lib

variable {D : Type}

/-- What a caller may rely on in one read of a stream with `channels` channels: the frames counted
are consecutive frames of blocks with this channel count, and a block with another count makes the
read raise. -/
structure ReadRecord.ChannelSafe (channels : ℕ) (blocks : List Frame) (record : ReadRecord) :
    Prop where
  counted : ∀ frames samples, record.result = .returned (frames, samples) → 0 < frames →
    ∃ before rows after, rowsOf blocks = before ++ rows ++ after ∧ (rows.length : ℤ) = frames ∧
      HasWidth channels rows ∧ samples.take (frames.toNat * channels) = rows.flatten
  refused : (∃ frame, .writeCallback frame ∈ record.events ∧ frame.channels ≠ channels) →
    ∃ exception, record.result = .threw exception

/-- A read that raises, and that was not handed a block. -/
theorem ReadRecord.ChannelSafe.of_threw {channels : ℕ} {blocks : List Frame}
    {events : List Event} (exception : Throwable) :
    ReadRecord.ChannelSafe channels blocks ⟨events, .threw exception⟩ :=
  ⟨nofun, fun _ => ⟨exception, rfl⟩⟩

/-- The blocks handed over in a read all have the channel count of the stream. -/
def ReadRecord.SameChannels (channels : ℕ) (record : ReadRecord) : Prop :=
  ∀ frame, .writeCallback frame ∈ record.events → frame.channels = channels

/-- The events that are not a block of another channel count. -/
def Event.hasChannels (channels : ℕ) : Event → Bool
  | .writeCallback frame => frame.channels == channels
  | _ => true

instance (channels : ℕ) (record : ReadRecord) : Decidable (record.SameChannels channels) :=
  decidable_of_iff (∀ e ∈ record.events, e.hasChannels channels = true) <| by
    refine ⟨fun h frame hframe => ?_, fun h e he => ?_⟩
    · simpa [Event.hasChannels] using h _ hframe
    · cases e with
      | writeCallback frame => simpa [Event.hasChannels] using h frame he
      | _ => rfl

/-- A read of an active session whose blocks have the channel count of the stream, with what it
leaves to come. -/
inductive PullStepSafe (At : List Frame → Stream D → Prop) (source : Source)
    (width total limit : ℕ) (blocks : List Frame) (record : ReadRecord) (p' : PullSession D) : Prop
  /-- The session goes on. -/
  | active (before todo : List (List Sample)) (hactive : p'.active = true)
      (hwidth : p'.channels = width) (hsplit : rowsOf blocks = before ++ todo)
      (hready : PullReady At Frame.Fits source width 0 total limit before.length todo p'.native)
      (hsafe : record.ChannelSafe width blocks)
  /-- The read has raised, and the session is over. -/
  | inactive (hinactive : p'.active = false) (exception : Throwable)
      (hthrew : record.result = .threw exception)

theorem ReadRecord.SameChannels.safe_of_no_rows {width : ℕ} {blocks : List Frame}
    {record : ReadRecord} (h : record.SameChannels width)
    (hresult : ∀ frames samples, record.result = .returned (frames, samples) → frames ≤ 0) :
    record.ChannelSafe width blocks :=
  ⟨fun frames samples hreturned hpos => absurd hpos (by have := hresult _ _ hreturned; omega),
    fun ⟨frame, hframe, hne⟩ => absurd (h frame hframe) hne⟩

/-- One read. -/
theorem PullSession.readInterleaved_safe {F : LibFlac D} {J : Jvm} {source : Source}
    {At : List Frame → Stream D → Prop} (hsingles : F.Singles J source At)
    {width total limit fuel : ℕ} (hpos : 0 < width) (hfuel : limit < fuel) {blocks : List Frame}
    {before todo : List (List Sample)} {p : PullSession D} (hactive : p.active = true)
    (hwidth : p.channels = width) (hsplit : rowsOf blocks = before ++ todo)
    (hready : PullReady At Frame.Fits source width 0 total limit before.length todo p.native)
    {samples : List Sample} (hsize : samples.length ≤ intMax) (maxFrames : ℤ)
    (hsame : ReadRecord.SameChannels width
      ⟨(p.readInterleaved F J fuel samples maxFrames).2.native.machine.history.drop
        p.native.machine.history.length, (p.readInterleaved F J fuel samples maxFrames).1⟩) :
    PullStepSafe At source width total limit blocks
      ⟨(p.readInterleaved F J fuel samples maxFrames).2.native.machine.history.drop
        p.native.machine.history.length, (p.readInterleaved F J fuel samples maxFrames).1⟩
      (p.readInterleaved F J fuel samples maxFrames).2 := by
  have hthrew : ∀ exception events, PullStepSafe At source width total limit blocks
      ⟨events, .threw exception⟩ p := fun exception events =>
    .active before todo hactive hwidth hsplit hready (.of_threw exception)
  unfold PullSession.readInterleaved at hsame ⊢
  rw [if_neg (by simp [hactive])] at hsame ⊢
  by_cases hneg : maxFrames < 0
  · rw [if_pos hneg]
    exact hthrew _ _
  rw [if_neg hneg] at hsame ⊢
  by_cases hbuffer : intMax < maxFrames.toNat * p.channels ∨
      samples.length < maxFrames.toNat * p.channels
  · rw [if_pos hbuffer]
    exact hthrew _ _
  rw [if_neg hbuffer] at hsame ⊢
  by_cases hzero : maxFrames = 0
  · rw [if_pos hzero] at hsame ⊢
    refine .active before todo hactive hwidth hsplit hready (hsame.safe_of_no_rows ?_)
    intro frames samples hreturned
    cases hreturned
    exact Int.le_refl 0
  rw [if_neg hzero] at hsame ⊢
  dsimp only at hsame ⊢
  have hasked : 0 < maxFrames := by omega
  have hbuffer' : maxFrames.toNat * width ≤ samples.length := by rw [← hwidth]; omega
  have hread := readPullDecoderInterleaved_spec hsingles (fun _ h => h) hpos hfuel hready hasked
    hbuffer' hsize
  generalize readPullDecoderInterleaved F J fuel samples maxFrames p.native = read at hread hsame
  cases hread with
  | filled hvalue hsamples hrows hnone hready' hquiet =>
    rw [hvalue, hnone] at hsame ⊢
    refine .active (before ++ todo.take maxFrames.toNat) (todo.drop maxFrames.toNat) hactive hwidth
      ?_ (by simpa using hready') ⟨?_, fun ⟨frame, hframe, hne⟩ => absurd (hsame frame hframe) hne⟩
    · rw [List.append_assoc, List.take_append_drop, hsplit]
    · rintro frames samples' hreturned hframes
      cases hreturned
      by_cases hempty : todo = []
      · rw [if_pos hempty] at hframes
        omega
      rw [if_neg hempty]
      refine ⟨before, todo.take maxFrames.toNat, todo.drop maxFrames.toNat, ?_, rfl, hrows, ?_⟩
      · rw [List.append_assoc, List.take_append_drop, hsplit]
      · rw [Int.toNat_natCast]
        exact hsamples
  | failed hvalue hraised hreason =>
    obtain ⟨exception, hexception⟩ := Option.ne_none_iff_exists'.mp hraised
    rw [hvalue, hexception]
    exact .inactive rfl exception rfl
  | odd frame hblock hframe hrecorded =>
    -- the odd block is among the blocks handed over in this read
    obtain ⟨extra, hhistory, hmem⟩ := hrecorded
    have hevents : ∀ result, ReadRecord.SameChannels width
        ⟨read.session.machine.history.drop p.native.machine.history.length, result⟩ → False := by
      intro result h
      refine hframe (h frame ?_)
      rw [hhistory, List.drop_left]
      exact hmem
    split at hsame
    · exact (hevents _ hsame).elim
    · exact (hevents _ hsame).elim
    · exact (hevents _ hsame).elim

/-- The run of reads. -/
theorem PullSession.reads_safe {F : LibFlac D} {J : Jvm} {source : Source}
    {At : List Frame → Stream D → Prop} (hsingles : F.Singles J source At)
    {width total limit fuel : ℕ} (hpos : 0 < width) (hfuel : limit < fuel) {blocks : List Frame}
    (requests : List (List Sample × ℤ)) (hsizes : ∀ r ∈ requests, r.1.length ≤ intMax)
    {before todo : List (List Sample)} {p : PullSession D} (hactive : p.active = true)
    (hwidth : p.channels = width) (hsplit : rowsOf blocks = before ++ todo)
    (hready : PullReady At Frame.Fits source width 0 total limit before.length todo p.native)
    (hsame : ∀ record ∈ p.reads F J fuel requests, record.SameChannels width) :
    ∀ record ∈ p.reads F J fuel requests, record.ChannelSafe width blocks := by
  induction requests generalizing before todo p with
  | nil => simp [PullSession.reads]
  | cons request requests ih =>
    obtain ⟨samples, maxFrames⟩ := request
    unfold PullSession.reads at hsame ⊢
    dsimp only at hsame ⊢
    have hstep := PullSession.readInterleaved_safe hsingles hpos hfuel hactive hwidth hsplit hready
      (hsizes _ List.mem_cons_self) maxFrames (hsame _ List.mem_cons_self)
    have hrest : ∀ record ∈ if (p.readInterleaved F J fuel samples maxFrames).1.finished then
          (p.readInterleaved F J fuel samples maxFrames).2.reads F J fuel requests else [],
        record.SameChannels width :=
      fun record hrecord => hsame record (List.mem_cons_of_mem _ hrecord)
    generalize p.readInterleaved F J fuel samples maxFrames = read at hstep hrest
    intro record hrecord
    rcases List.mem_cons.mp hrecord with rfl | hrecord
    · cases hstep with
      | active before todo hactive hwidth hsplit hready hsafe => exact hsafe
      | inactive hinactive exception hthrew =>
        refine ⟨fun frames samples hreturned => ?_, fun _ => ⟨exception, hthrew⟩⟩
        rw [hthrew] at hreturned
        cases hreturned
    · by_cases hfinished : read.1.finished = true
      swap
      · rw [if_neg hfinished] at hrecord
        cases hrecord
      rw [if_pos hfinished] at hrecord hrest
      cases hstep with
      | active before todo hactive hwidth hsplit hready hsafe =>
        exact ih (fun r hr => hsizes r (List.mem_cons_of_mem _ hr)) hactive hwidth hsplit hready
          hrest record hrecord
      | inactive hinactive exception hthrew =>
        rw [PullSession.reads_inactive F J fuel requests hinactive record hrecord]
        exact .of_threw _

/-- The layout of pull reads is right in every run whose blocks have the channel count of
STREAMINFO. -/
theorem pullChannels_safe {F : LibFlac D} {J : Jvm} (hmetadata : F.MetadataOnly)
    {transport : Transport} {source : Bool} {container : ℤ} {session : Session D} {m : Machine}
    (hopen : openPullDecoder F J transport source container = (some session, m))
    {At : List Frame → Stream D → Prop}
    (hsingles : F.Singles J session.machine.context.source At) {blocks : List Frame}
    (hat : At blocks session.stream) (hfits : ∀ b ∈ blocks, b.Fits) {channels : ℕ}
    (hchannels : session.machine.context.streamInfo.channels = channels) (hpos : 1 ≤ channels)
    {fuel : ℕ} (hfuel : blocks.length < fuel) (requests : List (List Sample × ℤ))
    (hsizes : ∀ r ∈ requests, r.1.length ≤ intMax)
    (hsame : ∀ record ∈ (PullSession.ofNative session).reads F J fuel requests,
      record.SameChannels channels) :
    ∀ record ∈ (PullSession.ofNative session).reads F J fuel requests,
      record.ChannelSafe channels blocks := by
  subst hchannels
  have hready := PullReady.opened hmetadata hopen hat hfits
  exact PullSession.reads_safe hsingles hpos hfuel requests hsizes rfl rfl
    (List.nil_append _).symm hready hsame

theorem pullChannels_safe_stereo :
    ∃ session m, openPullDecoder stereo quietJvm .file true 0 = (some session, m) ∧
      ∀ record ∈ (PullSession.ofNative session).reads stereo quietJvm 3
        [(List.replicate 4 1, 2)], record.ChannelSafe 2 stereoBlocks := by
  refine ⟨_, _, rfl, ?_⟩
  have hfits : ∀ b ∈ stereoBlocks, b.Fits := by
    intro b hb
    simp only [stereoBlocks, List.mem_cons, List.not_mem_nil, or_false] at hb
    rcases hb with rfl | rfl <;> exact ⟨by decide, by decide, by decide⟩
  refine pullChannels_safe (scripted_metadataOnly _)
    (rfl : openPullDecoder stereo quietJvm .file true 0 = _) (scripted_singles _ _ _)
    (rfl : _ = stereoBlocks.map Script.block) hfits rfl (by decide)
    (by decide : stereoBlocks.length < 3) _ (by simp [intMax]) ?_
  decide +kernel

/-- A block with two channels. -/
def stereoBlock : Frame := silentFrame 2 1 two_lt_uint32 one_lt_uint32

/-- A mono stream whose only block carries two channels. -/
def oddBlock : LibFlac Scripted :=
  scripted [⟨[.metadata (.streamInfo { StreamInfo.zero with channels := 1 })], true, .other⟩,
    .block stereoBlock]

/-- The read returns one frame of that block as if it were a mono frame. -/
theorem pullChannels_unsafe_oddBlock :
    ∃ session m, openPullDecoder oddBlock quietJvm .file true 0 = (some session, m) ∧
      session.machine.context.streamInfo.channels = 1 ∧
      ¬ ∀ record ∈ (PullSession.ofNative session).reads oddBlock quietJvm 2
        [(List.replicate 2 1, 2)], record.ChannelSafe 1 [stereoBlock] := by
  obtain ⟨session, m, hopen, hchannels, hresults⟩ : ∃ session m,
      openPullDecoder oddBlock quietJvm .file true 0 = (some session, m) ∧
      session.machine.context.streamInfo.channels = 1 ∧
      ((PullSession.ofNative session).reads oddBlock quietJvm 2
        [(List.replicate 2 1, 2)]).map ReadRecord.result = [.returned (1, [0, 0])] :=
    ⟨_, _, rfl, rfl, by decide +kernel⟩
  refine ⟨session, m, hopen, hchannels, fun h => ?_⟩
  have hreturned : Result.returned (1, [0, 0]) ∈ ((PullSession.ofNative session).reads oddBlock
      quietJvm 2 [(List.replicate 2 1, 2)]).map ReadRecord.result := by
    rw [hresults]
    exact List.mem_cons_self
  obtain ⟨record, hrecord, hresult⟩ := List.mem_map.mp hreturned
  obtain ⟨before, rows, after, hsplit, hlength, hwidth, -⟩ :=
    (h record hrecord).counted 1 [0, 0] hresult (by decide)
  have hstereo : HasWidth 2 (rowsOf [stereoBlock]) :=
    rowsOf_hasWidth (by simp [stereoBlock, silentFrame])
  obtain ⟨row, rest, rfl⟩ := List.exists_cons_of_length_pos (l := rows) (by omega)
  have hone : row.length = 1 := hwidth row List.mem_cons_self
  have htwo : row.length = 2 := hstereo row (by rw [hsplit]; simp)
  omega

end JFlac.Decode
