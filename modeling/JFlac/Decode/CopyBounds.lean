import JFlac.Decode.PullReads

/-!
# The arithmetic of the PCM copies

Decoded PCM reaches Java in three copies: a block is interleaved into native memory, a prefix of
it goes into the caller's array (pull), or the whole of it into a new array (push). Their offsets
are products and sums of `uint32_t` counters, guarded in other functions and in other calls.

`PullReachable` is every state the native code can be in between opening a pull session and any of
its copies: requests and blocks come in any order and number, and libFLAC may hand over blocks of
any size. `PullCounters` is what the guards keep true of the counters in all of them, and from it
no product or sum of a copy wraps around. `PushReachable` and `RangeCounters` do the same for the
push callback. The 64-bit count of emitted frames enters a copy in push mode only, where the range
bounds it.
-/

namespace JFlac.Decode

open Machine

variable {D : Type}

/-! ## One copy in bounds -/

/-- The double loop of a write callback over `frames` frames: every index is computed without
wrapping, lies inside the buffer, and receives the sample of its channel and frame. -/
structure InterleaveInBounds (frame : Frame) (frames : ℕ) : Prop where
  length : (interleave frame frames).length = frame.channels * frames
  bytes : 4 * (frame.channels * frames) < 18446744073709551616
  row : ∀ frameIndex < frames, mul32 frameIndex frame.channels = frameIndex * frame.channels
  index : ∀ frameIndex < frames, ∀ channelIndex < frame.channels,
    add32 (mul32 frameIndex frame.channels) channelIndex =
      frameIndex * frame.channels + channelIndex
  inside : ∀ frameIndex < frames, ∀ channelIndex < frame.channels,
    frameIndex * frame.channels + channelIndex < frame.channels * frames
  stored : ∀ frameIndex < frames, ∀ channelIndex < frame.channels,
    (interleave frame frames)[frameIndex * frame.channels + channelIndex]? =
      some (frame.buffer channelIndex frameIndex)

/-- The frames a drain copies, in natural numbers. -/
def DecodeContext.copyFrames (c : DecodeContext) : ℕ :=
  min ((c.pullPendingSampleCount - c.pullPendingSampleOffset) / c.pullChannels)
    (c.pullRequestedFrames - c.pullWrittenFrames)

/-- The `SetIntArrayRegion` of a drain from the pending block to the caller's array: each operation
on the counters gives the natural number, and both ranges exist. -/
structure CopyInBounds (c : DecodeContext) (pending array : List Sample) : Prop where
  written_le : c.pullWrittenFrames ≤ c.pullRequestedFrames
  remaining : sub32 c.pullRequestedFrames c.pullWrittenFrames =
    c.pullRequestedFrames - c.pullWrittenFrames
  offset_le : c.pullPendingSampleOffset ≤ c.pullPendingSampleCount
  available : sub32 c.pullPendingSampleCount c.pullPendingSampleOffset =
    c.pullPendingSampleCount - c.pullPendingSampleOffset
  samples : mul32 c.copyFrames c.pullChannels = c.copyFrames * c.pullChannels
  start : mul32 c.pullWrittenFrames c.pullChannels = c.pullWrittenFrames * c.pullChannels
  target : c.pullWrittenFrames * c.pullChannels + c.copyFrames * c.pullChannels ≤ array.length
  region : c.pullWrittenFrames * c.pullChannels + c.copyFrames * c.pullChannels ≤ intMax
  source : c.pullPendingSampleOffset + c.copyFrames * c.pullChannels ≤ pending.length
  offset : add32 c.pullPendingSampleOffset (mul32 c.copyFrames c.pullChannels) =
    c.pullPendingSampleOffset + c.copyFrames * c.pullChannels
  written : add32 c.pullWrittenFrames c.copyFrames = c.pullWrittenFrames + c.copyFrames
  filled_le : c.pullWrittenFrames + c.copyFrames ≤ c.pullRequestedFrames

/-- What a drain does: it copies nothing, or makes one copy in bounds. -/
inductive DrainStep (m : Machine) : Bool × Machine → Prop
  | empty : DrainStep m (true, m.withContext m.context.clearDecodePullPending)
  | filled : DrainStep m (true, m)
  | copied (pending array : List Sample) (hpending : m.context.pullPendingSamples = some pending)
      (harray : m.context.pullOutput = some array)
      (hbounds : CopyInBounds m.context pending array) :
      DrainStep m
        (true, m.withContext (m.context.copyOut
          (m.context.pullWrittenFrames * m.context.pullChannels) m.context.copyFrames
          ((pending.drop m.context.pullPendingSampleOffset).take
            (m.context.copyFrames * m.context.pullChannels))).releaseDrained)

/-- What the write callback of a pull decoder does with a block. -/
inductive BlockStep (frame : Frame) (m : Machine) : WriteStatus × Machine → Prop
  /-- Something failed before: libFLAC is told to stop. -/
  | stopped (h : m.pending.isSome = true ∨ m.context.sawError = true) :
      BlockStep frame m (.abort, m)
  /-- An exception, and nothing was stored or copied. -/
  | refused (m' : Machine) (hcontext : m'.context = m.context) (hraised : m'.pending ≠ none) :
      BlockStep frame m (.abort, m')
  /-- The block is stored, and drained. -/
  | taken (hfits : frame.Fits) (hinterleave : InterleaveInBounds frame frame.blocksize)
      (drained : Bool × Machine)
      (hdrain : DrainStep (m.withContext (m.context.stash frame)) drained)
      (hpending : drained.2.pending = none) :
      BlockStep frame m (.cont, drained.2)

theorem DrainStep.succeeded {m : Machine} {r : Bool × Machine} (h : DrainStep m r) :
    r.1 = true := by
  cases h <;> rfl

theorem DrainStep.streamFields {m : Machine} {r : Bool × Machine} (h : DrainStep m r) :
    r.2.context.streamFields = m.context.streamFields := by
  cases h with
  | empty => rfl
  | filled => rfl
  | copied => rw [withContext_context, releaseDrained_streamFields, copyOut_streamFields]

/-! ## Interleaving -/

theorem length_interleave (frame : Frame) (frames : ℕ) :
    (interleave frame frames).length = frame.channels * frames := by
  simp [interleave, List.length_flatMap, Nat.mul_comm]

theorem interleave_succ (frame : Frame) (frames : ℕ) :
    interleave frame (frames + 1) = interleave frame frames ++
      (List.range frame.channels).map fun channelIndex => frame.buffer channelIndex frames := by
  simp [interleave, List.range_succ]

/-- The sample of a channel and a frame is stored where the loop computes its index. -/
theorem interleave_getElem? (frame : Frame) {frames frameIndex channelIndex : ℕ}
    (hframe : frameIndex < frames) (hchannel : channelIndex < frame.channels) :
    (interleave frame frames)[frameIndex * frame.channels + channelIndex]? =
      some (frame.buffer channelIndex frameIndex) := by
  induction frames with
  | zero => omega
  | succ frames ih =>
    have hlength := length_interleave frame frames
    have hcomm : frames * frame.channels = frame.channels * frames := Nat.mul_comm _ _
    rw [interleave_succ]
    rcases Nat.lt_succ_iff_lt_or_eq.mp hframe with hlt | rfl
    · have hrow : (frameIndex + 1) * frame.channels ≤ frames * frame.channels :=
        Nat.mul_le_mul_right _ hlt
      rw [Nat.add_mul] at hrow
      rw [List.getElem?_append_left (by omega)]
      exact ih hlt
    · rw [List.getElem?_append_right (by omega), hlength, hcomm, Nat.add_sub_cancel_left]
      simp [hchannel]

/-- Blocks that pass the guard are interleaved in bounds. -/
theorem interleaveInBounds {frame : Frame} {frames : ℕ}
    (hsize : frame.channels * frames ≤ intMax) : InterleaveInBounds frame frames := by
  simp only [intMax] at hsize
  have hinside : ∀ frameIndex < frames, ∀ channelIndex < frame.channels,
      frameIndex * frame.channels + channelIndex < frame.channels * frames := by
    intro frameIndex hframe channelIndex hchannel
    have hrow : (frameIndex + 1) * frame.channels ≤ frames * frame.channels :=
      Nat.mul_le_mul_right _ hframe
    rw [Nat.add_mul, Nat.mul_comm frames] at hrow
    omega
  have hrow : ∀ frameIndex < frames,
      mul32 frameIndex frame.channels = frameIndex * frame.channels := by
    intro frameIndex hframe
    have hle : frameIndex * frame.channels ≤ frames * frame.channels :=
      Nat.mul_le_mul_right _ (Nat.le_of_lt hframe)
    rw [Nat.mul_comm frames] at hle
    exact mul32_of_lt (by omega)
  refine ⟨length_interleave frame frames, by omega, hrow, ?_, hinside, ?_⟩
  · intro frameIndex hframe channelIndex hchannel
    have hlt := hinside frameIndex hframe channelIndex hchannel
    rw [hrow frameIndex hframe, add32_of_lt (by omega)]
  · intro frameIndex hframe channelIndex hchannel
    exact interleave_getElem? frame hframe hchannel

/-! ## What the guards keep true -/

/-- The counters of a pull session over a stream of `channels` channels. -/
structure PullCounters (channels : ℕ) (c : DecodeContext) : Prop where
  pull : c.pullMode = true
  info : c.sawStreamInfo = true → c.streamInfo.channels = channels
  written : c.pullWrittenFrames ≤ c.pullRequestedFrames
  requested : c.pullRequestedFrames ≤ intMax
  samples : c.pullRequestedFrames * channels ≤ intMax
  capacity : c.pullRequestedFrames * channels ≤ c.pullOutputCapacitySamples
  block : ∀ pending, c.pullPendingSamples = some pending →
    c.pullPendingSampleCount = pending.length ∧ pending.length ≤ intMax ∧
      c.pullPendingSampleOffset ≤ pending.length

/-- The caller's array, and the channel count its offsets are computed with. -/
structure Attached (channels : ℕ) (c : DecodeContext) : Prop where
  channels : c.pullChannels = channels
  array : ∃ array, c.pullOutput = some array ∧ c.pullOutputCapacitySamples = array.length

theorem PullCounters.clear {channels : ℕ} {c : DecodeContext} (h : PullCounters channels c) :
    PullCounters channels c.clearDecodePullPending :=
  ⟨h.pull, h.info, h.written, h.requested, h.samples, h.capacity, nofun⟩

theorem Attached.clear {channels : ℕ} {c : DecodeContext} (h : Attached channels c) :
    Attached channels c.clearDecodePullPending :=
  ⟨h.channels, h.array⟩

theorem PullCounters.releaseDrained {channels : ℕ} {c : DecodeContext}
    (h : PullCounters channels c) : PullCounters channels c.releaseDrained := by
  unfold DecodeContext.releaseDrained
  split
  · exact h.clear
  · exact h

theorem Attached.releaseDrained {channels : ℕ} {c : DecodeContext} (h : Attached channels c) :
    Attached channels c.releaseDrained := by
  unfold DecodeContext.releaseDrained
  split
  · exact h.clear
  · exact h

/-- Storing a block that passed the guard. -/
theorem PullCounters.stash {channels : ℕ} {c : DecodeContext} (h : PullCounters channels c)
    {frame : Frame} (hfits : frame.Fits) : PullCounters channels (c.stash frame) := by
  refine ⟨h.pull, h.info, h.written, h.requested, h.samples, h.capacity, ?_⟩
  intro pending hpending
  have hblock : interleave frame frame.blocksize = pending := Option.some.inj hpending
  have hlength : pending.length = frame.channels * frame.blocksize := by
    rw [← hblock, length_interleave]
  exact ⟨hlength.symm, by rw [hlength]; exact hfits.size, Nat.zero_le _⟩

theorem Attached.stash {channels : ℕ} {c : DecodeContext} (h : Attached channels c)
    {frame : Frame} (hchannels : frame.channels = channels) : Attached channels (c.stash frame) :=
  ⟨hchannels, h.array⟩

/-- With the guards passed, the next copy is in bounds: the request bounds the target, the block
bounds the source. -/
theorem PullCounters.copyInBounds {channels : ℕ} {c : DecodeContext} (h : PullCounters channels c)
    (hattached : Attached channels c) {pending array : List Sample}
    (hpending : c.pullPendingSamples = some pending) (harray : c.pullOutput = some array) :
    CopyInBounds c pending array := by
  obtain ⟨hcount, hsize, hoffset⟩ := h.block pending hpending
  obtain ⟨array', harray', hcapacity⟩ := hattached.array
  obtain rfl : array' = array := Option.some.inj (harray'.symm.trans harray)
  have hchannels := hattached.channels
  have hwritten := h.written
  have hrequested := h.requested
  have hsamples := h.samples
  have hfits := h.capacity
  have hfill : c.pullWrittenFrames + c.copyFrames ≤ c.pullRequestedFrames := by
    unfold DecodeContext.copyFrames
    omega
  have htarget : (c.pullWrittenFrames + c.copyFrames) * channels ≤
      c.pullRequestedFrames * channels := Nat.mul_le_mul_right _ hfill
  rw [Nat.add_mul] at htarget
  have hsource : c.copyFrames * channels ≤ pending.length - c.pullPendingSampleOffset := by
    have hle : c.copyFrames ≤ (pending.length - c.pullPendingSampleOffset) / channels := by
      unfold DecodeContext.copyFrames
      rw [hcount, hchannels]
      exact Nat.min_le_left _ _
    exact Nat.le_trans (Nat.mul_le_mul_right _ hle) (Nat.div_mul_le_self _ _)
  simp only [intMax] at hrequested hsamples hsize
  have hproduct : mul32 c.copyFrames c.pullChannels = c.copyFrames * channels := by
    rw [hchannels, mul32_of_lt (by omega)]
  refine ⟨hwritten, sub32_of_le hwritten (by omega), by omega, sub32_of_le (by omega) (by omega),
    ?_, ?_, ?_, ?_, ?_, ?_, add32_of_lt (by omega), hfill⟩
  · rw [hproduct, hchannels]
  · rw [hchannels, mul32_of_lt (by omega)]
  · rw [hchannels]
    omega
  · rw [hchannels]
    simp only [intMax]
    omega
  · rw [hchannels]
    omega
  · rw [hproduct, hchannels, add32_of_lt (by omega)]

/-- A copy in bounds keeps the counters. -/
theorem PullCounters.copyOut {channels : ℕ} {c : DecodeContext} (h : PullCounters channels c)
    {pending array : List Sample} (hpending : c.pullPendingSamples = some pending)
    (hbounds : CopyInBounds c pending array) (start : ℕ) (samples : List Sample) :
    PullCounters channels (c.copyOut start c.copyFrames samples) := by
  refine ⟨h.pull, h.info, ?_, h.requested, h.samples, h.capacity, ?_⟩
  · have hwritten : (c.copyOut start c.copyFrames samples).pullWrittenFrames =
        c.pullWrittenFrames + c.copyFrames := hbounds.written
    rw [hwritten]
    exact hbounds.filled_le
  · intro pending' hpending'
    obtain rfl : pending = pending' := Option.some.inj (hpending.symm.trans hpending')
    have hoffset : (c.copyOut start c.copyFrames samples).pullPendingSampleOffset =
        c.pullPendingSampleOffset + c.copyFrames * c.pullChannels := hbounds.offset
    rw [hoffset]
    obtain ⟨hcount, hsize, -⟩ := h.block pending hpending
    exact ⟨hcount, hsize, hbounds.source⟩

theorem Attached.copyOut {channels : ℕ} {c : DecodeContext} (h : Attached channels c)
    {start frames : ℕ} {array samples : List Sample} (harray : c.pullOutput = some array)
    (htarget : start + samples.length ≤ array.length) :
    Attached channels (c.copyOut start frames samples) := by
  obtain ⟨array', harray', hcapacity⟩ := h.array
  obtain rfl : array' = array := Option.some.inj (harray'.symm.trans harray)
  refine ⟨h.channels, setIntArrayRegion array' start samples, ?_, ?_⟩
  · have houtput : (c.copyOut start frames samples).pullOutput =
        c.pullOutput.map fun array => setIntArrayRegion array start samples := rfl
    rw [houtput, harray', Option.map_some]
  · rw [length_setIntArrayRegion htarget]
    exact hcapacity

/-! ## Draining and blocks -/

/-- A drain into the caller's array. -/
theorem drainDecodePullPending_step {channels : ℕ} {m : Machine} (hnone : m.pending = none)
    (h : PullCounters channels m.context) (hattached : Attached channels m.context)
    (hpositive : 0 < channels) :
    DrainStep m (drainDecodePullPending m) ∧
      PullCounters channels (drainDecodePullPending m).2.context ∧
      Attached channels (drainDecodePullPending m).2.context ∧
      (drainDecodePullPending m).2.pending = none := by
  unfold drainDecodePullPending
  dsimp only
  cases hpending : m.context.pullPendingSamples with
  | none => exact ⟨.empty, h.clear, hattached.clear, hnone⟩
  | some pending =>
    obtain ⟨hcount, hsize, hoffset⟩ := h.block pending hpending
    obtain ⟨array, harray, hcapacity⟩ := hattached.array
    have hbounds := h.copyInBounds hattached hpending harray
    have hchannels := hattached.channels
    have htarget := hbounds.target
    dsimp only
    split
    · exact ⟨.empty, h.clear, hattached.clear, hnone⟩
    rw [if_neg (by omega)]
    split
    · exact ⟨.filled, h, hattached, hnone⟩
    -- the copied frames, computed in machine integers
    have hframes : min (sub32 m.context.pullPendingSampleCount m.context.pullPendingSampleOffset /
          m.context.pullChannels)
        (sub32 m.context.pullRequestedFrames m.context.pullWrittenFrames) =
          m.context.copyFrames := by
      rw [hbounds.available, hbounds.remaining]
      rfl
    rw [hframes, hbounds.samples, hbounds.start, if_neg (by omega),
      if_neg (by simp [exceptionCheck, hnone])]
    have hlength : ((pending.drop m.context.pullPendingSampleOffset).take
        (m.context.copyFrames * m.context.pullChannels)).length =
          m.context.copyFrames * m.context.pullChannels := by
      have hsource := hbounds.source
      rw [List.length_take, List.length_drop]
      omega
    refine ⟨.copied pending array hpending harray hbounds, ?_, ?_, hnone⟩
    · exact (h.copyOut hpending hbounds _ _).releaseDrained
    · exact (hattached.copyOut harray (by rw [hlength]; exact htarget)).releaseDrained

/-- A drain while nothing was asked for. -/
theorem drainDecodePullPending_idle {channels : ℕ} {m : Machine}
    (h : PullCounters channels m.context) (hnothing : m.context.pullRequestedFrames = 0)
    (hchannels : m.context.pullChannels ≠ 0) :
    DrainStep m (drainDecodePullPending m) ∧
      PullCounters channels (drainDecodePullPending m).2.context ∧
      (drainDecodePullPending m).2.pending = m.pending := by
  unfold drainDecodePullPending
  dsimp only
  split
  · exact ⟨.empty, h.clear, rfl⟩
  split
  · exact ⟨.empty, h.clear, rfl⟩
  have hwritten := h.written
  rw [if_pos (by rw [sub32_of_le hwritten (by omega)]; omega)]
  exact ⟨.filled, h, rfl⟩

/-- What is known besides the counters, while the session is opened and while it is read. -/
inductive Phase where
  | opening
  | idle
  | reading
  deriving DecidableEq, Repr

/-- The part of the invariant that depends on the phase. -/
def Phase.Holds (channels : ℕ) : Phase → DecodeContext → Prop
  | .opening, c => c.pullRequestedFrames = 0
  | .idle, c => c.sawStreamInfo = true
  | .reading, c => c.sawStreamInfo = true ∧ 0 < channels ∧ Attached channels c

/-- The context between two steps of a pull session. -/
structure PullState (channels : ℕ) (phase : Phase) (c : DecodeContext) : Prop where
  counters : PullCounters channels c
  phase : phase.Holds channels c

/-- A block handed to a pull decoder that is being opened or read. -/
theorem decodeWriteCallback_block (J : Jvm) {frame : Frame} {channels : ℕ} {phase : Phase}
    {m : Machine} (h : PullState channels phase m.context) (hphase : phase ≠ .idle)
    (hchannels : frame.channels = channels) :
    BlockStep frame m (decodeWriteCallback J frame m) ∧
      PullState channels phase (decodeWriteCallback J frame m).2.context := by
  unfold decodeWriteCallback
  by_cases hcheck : m.exceptionCheck = true
  · rw [if_pos hcheck]
    exact ⟨.stopped (.inl hcheck), h⟩
  rw [if_neg hcheck]
  have hnone := pending_eq_none hcheck
  by_cases herror : m.context.sawError = true
  · rw [if_pos herror]
    exact ⟨.stopped (.inr herror), h⟩
  rw [if_neg herror, if_pos h.counters.pull]
  unfold decodePullWriteCallback
  dsimp only
  split
  · exact ⟨.refused _ rfl (by simp), h⟩
  rename_i hguard
  split
  · exact ⟨.refused _ rfl (by simp), h⟩
  split
  · exact ⟨.refused _ rfl (by simp), h⟩
  have hfits : frame.Fits := ⟨by omega, by omega, by omega⟩
  have hcounters := h.counters.stash hfits
  have hinterleave := interleaveInBounds hfits.size
  have hsetup := drainDecodePullPending_setup (m.withContext (m.context.stash frame))
  cases phase with
  | idle => exact absurd rfl hphase
  | opening =>
    obtain ⟨hdrain, hkept, hpending⟩ := drainDecodePullPending_idle
      (m := m.withContext (m.context.stash frame)) hcounters h.phase
      (by have hpos := hfits.channels; exact Nat.ne_of_gt hpos)
    have hstate : PullState channels .opening
        (drainDecodePullPending (m.withContext (m.context.stash frame))).2.context :=
      ⟨hkept, (congrArg Setup.pullRequestedFrames hsetup).trans h.phase⟩
    rw [if_pos hdrain.succeeded]
    exact ⟨.taken hfits hinterleave _ hdrain (hpending.trans hnone), hstate⟩
  | reading =>
    obtain ⟨hinfo, hpositive, hattached⟩ := h.phase
    obtain ⟨hdrain, hkept, hattached', hpending⟩ := drainDecodePullPending_step
      (m := m.withContext (m.context.stash frame)) hnone hcounters (hattached.stash hchannels)
      hpositive
    have hstate : PullState channels .reading
        (drainDecodePullPending (m.withContext (m.context.stash frame))).2.context := by
      refine ⟨hkept, ?_, hpositive, hattached'⟩
      exact (congrArg (·.2.1) hdrain.streamFields).trans hinfo
    rw [if_pos hdrain.succeeded]
    exact ⟨.taken hfits hinterleave _ hdrain hpending, hstate⟩

/-! ## Pull sessions -/

/-- What libFLAC hands over of a stream with `channels` channels: blocks of any size. -/
def Callback.OfChannels (channels : ℕ) : Callback → Prop
  | .write frame => frame.channels = channels
  | .metadata (.streamInfo info) => info.channels = channels
  | _ => True

/-- The guards a pull read passes before it stores the request. -/
structure Accepted (c : DecodeContext) (samples : List Sample) (maxFrames : ℕ) : Prop where
  positive : 0 < maxFrames
  channels : c.streamInfo.channels ≠ 0
  required : maxFrames * c.streamInfo.channels ≤ intMax
  capacity : maxFrames * c.streamInfo.channels ≤ samples.length

/-- The states of the native code between opening a pull session and any of its copies: requests
come in any order, and libFLAC makes any callbacks while a session is opened or read. -/
inductive PullReachable (J : Jvm) (channels : UInt32) : Phase → Machine → Prop
  | opening (m : Machine) (source : Source)
      (hcontext : m.context = (openContext true).withSource source) :
      PullReachable J channels .opening m
  | callback (phase : Phase) (m : Machine) (h : PullReachable J channels phase m)
      (hphase : phase ≠ .idle) (callback : Callback) (calls : List TransportCall)
      (hchannels : callback.OfChannels channels.toNat) :
      PullReachable J channels phase (handle J callback (m, calls)).2.1
  | opened (m : Machine) (h : PullReachable J channels .opening m)
      (hinfo : m.context.sawStreamInfo = true) : PullReachable J channels .idle m
  | request (m : Machine) (h : PullReachable J channels .idle m) (samples : List Sample)
      (maxFrames : ℕ) (haccepted : Accepted m.context samples maxFrames) :
      PullReachable J channels .reading
        (drainDecodePullPending
          (m.enter.withContext (m.context.startPull samples maxFrames))).2
  | returned (m : Machine) (h : PullReachable J channels .reading m) :
      PullReachable J channels .idle (m.withContext m.context.dropOutput)
  /-- Exceptions, records, and the end of the stream. -/
  | elsewhere (phase : Phase) (m m' : Machine) (h : PullReachable J channels phase m)
      (hcontext : m'.context = m.context ∨ m'.context = m.context.endPull) :
      PullReachable J channels phase m'

theorem pullState_openContext (channels : ℕ) (source : Source) :
    PullState channels .opening ((openContext true).withSource source) :=
  ⟨⟨rfl, nofun, Nat.le_refl _, Nat.zero_le _, by simp [DecodeContext.withSource, openContext,
    DecodeContext.zero], by simp [DecodeContext.withSource, openContext, DecodeContext.zero],
    nofun⟩, rfl⟩

/-- The fields of a pull copy. -/
def DecodeContext.copyFields (c : DecodeContext) :
    (Bool × Option (List Sample) × ℕ × ℕ) × (ℕ × ℕ) × (Option (List Sample) × ℕ × ℕ) :=
  ((c.pullMode, c.pullOutput, c.pullOutputCapacitySamples, c.pullChannels),
    (c.pullRequestedFrames, c.pullWrittenFrames),
    (c.pullPendingSamples, c.pullPendingSampleCount, c.pullPendingSampleOffset))

/-- Steps that do not copy only bring STREAMINFO. -/
theorem PullState.of_copyFields {channels : ℕ} {phase : Phase} {c c' : DecodeContext}
    (h : PullState channels phase c) (hcopy : c'.copyFields = c.copyFields)
    (hinfo : c'.sawStreamInfo = true → c'.streamInfo.channels = channels)
    (hseen : c.sawStreamInfo = true → c'.sawStreamInfo = true) : PullState channels phase c' := by
  simp only [DecodeContext.copyFields, Prod.mk.injEq] at hcopy
  obtain ⟨⟨hpull, harray, hcapacity, hchannels⟩, ⟨hrequested, hwritten⟩, hpending, hcount,
    hoffset⟩ := hcopy
  refine ⟨⟨hpull.trans h.counters.pull, hinfo, ?_, ?_, ?_, ?_, ?_⟩, ?_⟩
  · rw [hwritten, hrequested]
    exact h.counters.written
  · rw [hrequested]
    exact h.counters.requested
  · rw [hrequested]
    exact h.counters.samples
  · rw [hrequested, hcapacity]
    exact h.counters.capacity
  · rw [hpending, hcount, hoffset]
    exact h.counters.block
  · cases phase with
    | opening => exact hrequested.trans h.phase
    | idle => exact hseen h.phase
    | reading =>
      obtain ⟨hsaw, hpositive, hattached⟩ := h.phase
      refine ⟨hseen hsaw, hpositive, hchannels.trans hattached.channels, ?_⟩
      rw [harray, hcapacity]
      exact hattached.array

/-- No callback takes the counters out of their bounds. -/
theorem PullState.handle {J : Jvm} {channels : ℕ} {phase : Phase} {m : Machine}
    (h : PullState channels phase m.context) (hphase : phase ≠ .idle) {callback : Callback}
    (hchannels : callback.OfChannels channels) (calls : List TransportCall) :
    PullState channels phase (JFlac.Decode.handle J callback (m, calls)).2.1.context := by
  cases callback with
  | write frame =>
    exact (decodeWriteCallback_block J (m := m.record (.writeCallback frame)) h hphase hchannels).2
  | error status => exact h.of_copyFields rfl h.counters.info id
  | transport callback =>
    have hsame : (JFlac.Decode.handle J (.transport callback) (m, calls)).2.1.context =
        m.context := (handleTransport_step J callback m calls).context
    rw [hsame]
    exact h
  | metadata block =>
    have hstep := decodeMetadataCallback_step J block (m.record (.metadataCallback block))
    show PullState channels phase
      (decodeMetadataCallback J block (m.record (.metadataCallback block))).context
    generalize decodeMetadataCallback J block (m.record (.metadataCallback block)) = m' at hstep
    cases hstep with
    | ignored => exact h
    | laterLink info => exact h.of_copyFields rfl h.counters.info id
    | mismatch info => exact h.of_copyFields rfl h.counters.info id
    | firstLink info => exact h.of_copyFields rfl (fun _ => hchannels) fun _ => rfl
    | stored info => exact h.of_copyFields rfl (fun _ => hchannels) fun _ => rfl

/-- A request that passed the guards. -/
theorem PullState.startPull {channels : ℕ} {c : DecodeContext} (h : PullState channels .idle c)
    {samples : List Sample} {maxFrames : ℕ} (haccepted : Accepted c samples maxFrames) :
    PullState channels .reading (c.startPull samples maxFrames) := by
  have hinfo := h.counters.info h.phase
  have hpositive := haccepted.channels
  have hrequired := haccepted.required
  have hcapacity := haccepted.capacity
  rw [hinfo] at hpositive hrequired hcapacity
  have hle : maxFrames ≤ maxFrames * channels := Nat.le_mul_of_pos_right _ (by omega)
  exact ⟨⟨h.counters.pull, h.counters.info, Nat.zero_le _, Nat.le_trans hle hrequired, hrequired,
      hcapacity, h.counters.block⟩,
    h.phase, by omega, hinfo, samples, rfl, rfl⟩

/-- The request is drained from what is left of the last block. -/
theorem drainDecodePullPending_request {channels : ℕ} {m : Machine}
    (h : PullState channels .idle m.context) {samples : List Sample} {maxFrames : ℕ}
    (haccepted : Accepted m.context samples maxFrames) :
    DrainStep (m.enter.withContext (m.context.startPull samples maxFrames))
        (drainDecodePullPending (m.enter.withContext (m.context.startPull samples maxFrames))) ∧
      PullState channels .reading (drainDecodePullPending
        (m.enter.withContext (m.context.startPull samples maxFrames))).2.context := by
  have hstart := h.startPull haccepted
  obtain ⟨hinfo, hpositive, hattached⟩ := hstart.phase
  obtain ⟨hdrain, hcounters, hattached', -⟩ := drainDecodePullPending_step
    (m := m.enter.withContext (m.context.startPull samples maxFrames)) rfl hstart.counters
    hattached hpositive
  refine ⟨hdrain, hcounters, ?_, hpositive, hattached'⟩
  exact (congrArg (·.2.1) hdrain.streamFields).trans hinfo

/-- The invariant of pull sessions. -/
theorem PullReachable.state {J : Jvm} {channels : UInt32} {phase : Phase} {m : Machine}
    (h : PullReachable J channels phase m) : PullState channels.toNat phase m.context := by
  induction h with
  | opening m source hcontext =>
    rw [hcontext]
    exact pullState_openContext _ source
  | callback phase m _ hphase callback calls hchannels ih =>
    exact ih.handle hphase hchannels calls
  | opened m _ hinfo ih => exact ⟨ih.counters, hinfo⟩
  | request m _ samples maxFrames haccepted ih =>
    exact (drainDecodePullPending_request ih haccepted).2
  | returned m _ ih =>
    exact ⟨⟨ih.counters.pull, ih.counters.info, ih.counters.written, ih.counters.requested,
      ih.counters.samples, ih.counters.capacity, ih.counters.block⟩, ih.phase.1⟩
  | elsewhere phase m m' _ hcontext ih =>
    rcases hcontext with heq | heq
    · rw [heq]
      exact ih
    · rw [heq]
      exact ih.of_copyFields rfl ih.counters.info id

/-! ## Push decoding -/

/-- The fields that decide how much of a block is forwarded. -/
def DecodeContext.rangeFields (c : DecodeContext) : Bool × Bool × ℕ × ℕ :=
  (c.pullMode, c.rangeLimited, c.maxFrames, c.emittedFrames)

/-- The states of the native code between the setup of a push operation and any of its copies. -/
inductive PushReachable (J : Jvm) : Machine → Prop
  | unlimited (m : Machine) (hpush : m.context.pullMode = false)
      (hunlimited : m.context.rangeLimited = false) : PushReachable J m
  | configured (m : Machine) (hpush : m.context.pullMode = false) (firstSample maxFrames : ℤ)
      (rangeLimited : Bool)
      (hvalid : rangeLimited = true →
        validateDecodeRequest firstSample rangeLimited maxFrames = none) :
      PushReachable J
        (m.withContext (m.context.configureDecodeRange firstSample rangeLimited maxFrames))
  | callback (m : Machine) (h : PushReachable J m) (callback : Callback)
      (calls : List TransportCall) : PushReachable J (handle J callback (m, calls)).2.1
  /-- Exceptions, records, and fields that are not about the range. -/
  | elsewhere (m m' : Machine) (h : PushReachable J m)
      (hrange : m'.context.rangeFields = m.context.rangeFields) : PushReachable J m'

/-- The frames of a limited range are never overdrawn. -/
structure RangeCounters (c : DecodeContext) : Prop where
  push : c.pullMode = false
  emitted : c.rangeLimited = true → c.emittedFrames ≤ c.maxFrames
  range : c.rangeLimited = true → (c.maxFrames : ℤ) ≤ longMax

/-- What the write callback does with a block in push mode. -/
inductive PushStep (frame : Frame) (m : Machine) : WriteStatus × Machine → Prop
  /-- Something failed before: libFLAC is told to stop. -/
  | stopped (h : m.pending.isSome = true ∨ m.context.sawError = true) :
      PushStep frame m (.abort, m)
  /-- The range is complete. -/
  | outside (houtput : m.context.outputFrames frame.blocksize = none)
      (hlimited : m.context.rangeLimited = true)
      (hcomplete : m.context.emittedFrames = m.context.maxFrames) :
      PushStep frame m (.cont, m.withContext m.context.completeRange)
  /-- An exception, and nothing was copied. -/
  | refused (m' : Machine) (hcontext : m'.context = m.context) (hraised : m'.pending ≠ none) :
      PushStep frame m (.abort, m')
  /-- The first frames are copied into a new array of their size; then Java may raise. -/
  | copied (frames : ℕ) (houtput : m.context.outputFrames frame.blocksize = some frames)
      (hframes : frames ≤ frame.blocksize)
      (hsize : 0 < frame.channels ∧ 0 < frames ∧ frame.channels * frames ≤ intMax)
      (hinterleave : InterleaveInBounds frame frames)
      (hrange : m.context.rangeLimited = true →
        m.context.emittedFrames + frames ≤ m.context.maxFrames ∧
          m.context.emittedFrames + frames < 18446744073709551616)
      (r : WriteStatus × Machine)
      (hresult : (r.1 = .abort ∧ r.2.context = m.context ∧ r.2.pending ≠ none) ∨
        (r.1 = .cont ∧ r.2.context = m.context.emit frames)) : PushStep frame m r

/-- How many frames of a block are forwarded. -/
theorem RangeCounters.outputFrames {c : DecodeContext} (h : RangeCounters c) (blocksize : ℕ) :
    (c.outputFrames blocksize = none ∧ c.rangeLimited = true ∧ c.emittedFrames = c.maxFrames) ∨
    ∃ frames, c.outputFrames blocksize = some frames ∧ frames ≤ blocksize ∧
      (c.rangeLimited = true → c.emittedFrames + frames ≤ c.maxFrames) := by
  unfold DecodeContext.outputFrames
  by_cases hlimited : c.rangeLimited = true
  swap
  · rw [if_neg hlimited]
    exact .inr ⟨blocksize, rfl, Nat.le_refl _, fun h => absurd h hlimited⟩
  have hle := h.emitted hlimited
  have hrange := h.range hlimited
  simp only [longMax] at hrange
  rw [if_pos hlimited, sub64_of_le hle (by omega)]
  dsimp only
  by_cases hdone : c.maxFrames - c.emittedFrames = 0
  · rw [if_pos hdone]
    exact .inl ⟨rfl, hlimited, by omega⟩
  · rw [if_neg hdone]
    exact .inr ⟨_, rfl, Nat.min_le_right _ _, fun _ => by omega⟩

/-- A block handed to a push decoder. -/
theorem decodeWriteCallback_push (J : Jvm) (frame : Frame) {m : Machine}
    (h : RangeCounters m.context) : PushStep frame m (decodeWriteCallback J frame m) := by
  unfold decodeWriteCallback
  by_cases hcheck : m.exceptionCheck = true
  · rw [if_pos hcheck]
    exact .stopped (.inl hcheck)
  rw [if_neg hcheck]
  have hnone := pending_eq_none hcheck
  by_cases herror : m.context.sawError = true
  · rw [if_pos herror]
    exact .stopped (.inr herror)
  rw [if_neg herror, if_neg (by simp [h.push])]
  rcases h.outputFrames frame.blocksize with ⟨hframes, hlimited, hcomplete⟩ |
    ⟨frames, hframes, hle, hrange⟩
  · rw [hframes]
    exact .outside hframes hlimited hcomplete
  rw [hframes]
  dsimp only
  have hrange' : m.context.rangeLimited = true →
      m.context.emittedFrames + frames ≤ m.context.maxFrames ∧
        m.context.emittedFrames + frames < 18446744073709551616 := by
    intro hlimited
    have hmax := h.range hlimited
    have hemitted := hrange hlimited
    simp only [longMax] at hmax
    exact ⟨hemitted, by omega⟩
  by_cases hguard : frame.channels = 0 ∨ frames = 0 ∨ intMax < frame.channels * frames
  · unfold forwardPcm
    rw [if_pos hguard]
    exact .refused _ rfl (by simp)
  · have hsize : 0 < frame.channels ∧ 0 < frames ∧ frame.channels * frames ≤ intMax := by omega
    refine .copied frames hframes hle hsize (interleaveInBounds hsize.2.2) hrange' _ ?_
    have hstep := forwardPcm_step J frame frames hnone (by simpa using herror) hframes
    generalize forwardPcm J frame frames m = r at hstep
    obtain ⟨status, m'⟩ := r
    dsimp only at hstep ⊢
    cases hstep with
    | refused hrefused =>
      rcases hrefused with hpending | hsaw
      · exact absurd hpending hcheck
      · exact absurd hsaw herror
    | outside _ _ hnone' =>
      rw [hframes] at hnone'
      cases hnone'
    | failed => exact .inl ⟨rfl, rfl, by simp⟩
    | threw => exact .inl ⟨rfl, rfl, by simp⟩
    | forwarded frames' _ _ hframes' =>
      obtain rfl : frames = frames' := Option.some.inj (hframes.symm.trans hframes')
      exact .inr ⟨rfl, rfl⟩

theorem rangeCounters_configured {c : DecodeContext} (hpush : c.pullMode = false)
    {firstSample maxFrames : ℤ} {rangeLimited : Bool}
    (hvalid : rangeLimited = true →
      validateDecodeRequest firstSample rangeLimited maxFrames = none) :
    RangeCounters (c.configureDecodeRange firstSample rangeLimited maxFrames) := by
  refine ⟨hpush, fun _ => Nat.zero_le _, fun hlimited => ?_⟩
  have hrange : rangeLimited = true := hlimited
  have hvalid := hvalid hrange
  unfold validateDecodeRequest at hvalid
  split at hvalid
  · cases hvalid
  split at hvalid
  · cases hvalid
  split at hvalid
  · cases hvalid
  rename_i hfirst hnegative hend
  have hle : ¬ longMax - firstSample < maxFrames := fun h => hend ⟨hrange, h⟩
  have hmax : (c.configureDecodeRange firstSample rangeLimited maxFrames).maxFrames =
      maxFrames.toNat := by
    show (if rangeLimited = true then maxFrames.toNat else 0) = maxFrames.toNat
    rw [if_pos hrange]
  have hlong : longMax = 9223372036854775807 := rfl
  rw [hmax]
  omega

theorem RangeCounters.of_setup {c c' : DecodeContext} (h : RangeCounters c)
    (hsetup : c'.setup = c.setup)
    (hemitted : c.rangeLimited = true → c'.emittedFrames ≤ c.maxFrames) : RangeCounters c' := by
  have hpush := congrArg Setup.pullMode hsetup
  have hlimited : c'.rangeLimited = c.rangeLimited := congrArg Setup.rangeLimited hsetup
  have hmax : c'.maxFrames = c.maxFrames := congrArg Setup.maxFrames hsetup
  refine ⟨hpush.trans h.push, ?_, ?_⟩
  · rw [hlimited, hmax]
    exact hemitted
  · rw [hlimited, hmax]
    exact h.range

/-- No callback overdraws the range. -/
theorem RangeCounters.handle {J : Jvm} {m : Machine} (h : RangeCounters m.context)
    (callback : Callback) (calls : List TransportCall) :
    RangeCounters (JFlac.Decode.handle J callback (m, calls)).2.1.context := by
  refine h.of_setup (handle_setup J callback m calls) fun hlimited => ?_
  have hemitted := h.emitted hlimited
  cases callback with
  | error status => exact hemitted
  | transport callback =>
    have hsame : (JFlac.Decode.handle J (.transport callback) (m, calls)).2.1.context =
        m.context := (handleTransport_step J callback m calls).context
    rw [hsame]
    exact hemitted
  | metadata block =>
    have hstep := decodeMetadataCallback_step J block (m.record (.metadataCallback block))
    show (decodeMetadataCallback J block
      (m.record (.metadataCallback block))).context.emittedFrames ≤ m.context.maxFrames
    generalize decodeMetadataCallback J block (m.record (.metadataCallback block)) = m' at hstep
    cases hstep with
    | ignored => exact hemitted
    | laterLink => exact hemitted
    | mismatch => exact hemitted
    | firstLink => exact hemitted
    | stored => exact hemitted
  | write frame =>
    have hstep := decodeWriteCallback_push J frame (m := m.record (.writeCallback frame)) h
    show (decodeWriteCallback J frame
      (m.record (.writeCallback frame))).2.context.emittedFrames ≤ m.context.maxFrames
    generalize decodeWriteCallback J frame (m.record (.writeCallback frame)) = r at hstep
    cases hstep with
    | stopped => exact hemitted
    | outside => exact hemitted
    | refused m' hcontext =>
      dsimp only
      rw [hcontext]
      exact hemitted
    | copied frames _ _ _ _ hrange _ hresult =>
      rcases hresult with ⟨-, hcontext, -⟩ | ⟨-, hcontext⟩
      · rw [hcontext]
        exact hemitted
      · rw [hcontext]
        exact (hrange hlimited).1

/-- The invariant of push operations. -/
theorem PushReachable.counters {J : Jvm} {m : Machine} (h : PushReachable J m) :
    RangeCounters m.context := by
  induction h with
  | unlimited m hpush hunlimited =>
    exact ⟨hpush, fun h => absurd h (by simp [hunlimited]), fun h => absurd h (by simp [hunlimited])⟩
  | configured m hpush firstSample maxFrames rangeLimited hvalid =>
    exact rangeCounters_configured hpush hvalid
  | callback m _ callback calls ih => exact ih.handle callback calls
  | elsewhere m m' _ hrange ih =>
    simp only [DecodeContext.rangeFields, Prod.mk.injEq] at hrange
    obtain ⟨hpush, hlimited, hmax, hemitted⟩ := hrange
    refine ⟨hpush.trans ih.push, ?_, ?_⟩
    · rw [hlimited, hmax, hemitted]
      exact ih.emitted
    · rw [hlimited, hmax]
      exact ih.range

end JFlac.Decode
