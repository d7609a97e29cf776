import JFlac.Pcm.Consumers
import Mathlib

/-!
# The JVM views agree

Each consumer accepts a callback when its sizes are consistent, and a sequence when all callbacks
are and the frame count is the expected one. What an accepted sequence leaves in each of them is
computed from the callbacks alone, so the three views can be compared.
-/

namespace JFlac.Pcm

open Lib
open Metadata (FlacStreamInfo require require_eq_ok)

/-! ## Arithmetic that does not wrap -/

theorem wrapLong_of_le {n : ℤ} (hnonneg : 0 ≤ n) (hle : n ≤ longMax) : wrapLong n = n := by
  unfold longMax at hle
  exact Int.bmod_eq_of_le (by omega) (by omega)

theorem wrapInt_of_le {n : ℤ} (hnonneg : 0 ≤ n) (hle : n ≤ intMax) : wrapInt n = n := by
  unfold intMax at hle
  exact Int.bmod_eq_of_le (by omega) (by omega)

theorem addExact_of_le {a b : ℤ} (ha : 0 ≤ a) (hb : 0 ≤ b) (hle : a + b ≤ longMax) :
    addExact a b = .ok (a + b) := by
  unfold longMax at hle
  rw [addExact, if_pos]
  unfold longMax
  omega

theorem le_longMax_of_le_intMax {n : ℤ} (h : n ≤ intMax) : n ≤ longMax := by
  unfold intMax at h
  unfold longMax
  omega

@[simp] theorem check_eq_ok {condition : Prop} [Decidable condition] {message : String} :
    check condition message = .ok () ↔ condition := by
  rw [check]
  split <;> simp_all

/-! ## Consistent callbacks -/

/-- The sizes of a callback fit together. -/
structure Consistent (info : FlacStreamInfo) (callback : PcmCallback) : Prop where
  frames_nonneg : 0 ≤ callback.frames
  count_le : callback.frames * info.channels ≤ intMax
  length_eq : (callback.samples.length : ℤ) = callback.frames * info.channels

/-- The number of frames of some callbacks. -/
def frameCount (callbacks : List PcmCallback) : ℤ := (callbacks.map (·.frames)).sum

/-- The number of samples of some callbacks. -/
def sampleCount (callbacks : List PcmCallback) : ℕ := (callbacks.map (·.samples.length)).sum

section Callbacks

variable {info : FlacStreamInfo} {callback : PcmCallback} {callbacks : List PcmCallback}

@[simp] theorem frameCount_nil : frameCount [] = 0 := rfl

@[simp] theorem frameCount_cons :
    frameCount (callback :: callbacks) = callback.frames + frameCount callbacks := rfl

@[simp] theorem sampleCount_nil : sampleCount [] = 0 := rfl

@[simp] theorem sampleCount_cons :
    sampleCount (callback :: callbacks) = callback.samples.length + sampleCount callbacks := rfl

theorem frameCount_nonneg (h : ∀ callback ∈ callbacks, Consistent info callback) :
    0 ≤ frameCount callbacks := by
  induction callbacks with
  | nil => exact Int.le_refl 0
  | cons callback callbacks ih =>
    obtain ⟨hfirst, hrest⟩ := List.forall_mem_cons.mp h
    have hframes := hfirst.frames_nonneg
    have hnonneg := ih hrest
    rw [frameCount_cons]
    omega

/-- The samples of consistent callbacks are those of their frames. -/
theorem sampleCount_eq (h : ∀ callback ∈ callbacks, Consistent info callback) :
    (sampleCount callbacks : ℤ) = frameCount callbacks * info.channels := by
  induction callbacks with
  | nil => simp
  | cons callback callbacks ih =>
    obtain ⟨hfirst, hrest⟩ := List.forall_mem_cons.mp h
    rw [sampleCount_cons, frameCount_cons, Int.add_mul, ← ih hrest, ← hfirst.length_eq]
    exact Int.natCast_add _ _

theorem frameCount_le (hchannels : 1 ≤ info.channels)
    (h : ∀ callback ∈ callbacks, Consistent info callback) :
    frameCount callbacks ≤ sampleCount callbacks := by
  rw [sampleCount_eq h]
  have hle := Int.mul_le_mul_of_nonneg_left hchannels (frameCount_nonneg h)
  rwa [Int.mul_one] at hle

/-- A size check that wraps is the size check. -/
theorem Consistent.wrapInt (h : Consistent info callback) (hchannels : 1 ≤ info.channels) :
    wrapInt (callback.frames * info.channels) = callback.frames * info.channels :=
  wrapInt_of_le (Int.mul_nonneg h.frames_nonneg (by omega)) h.count_le

theorem consistent_iff (hchannels : 1 ≤ info.channels) :
    Consistent info callback ↔
      0 ≤ callback.frames ∧ callback.frames * info.channels ≤ intMax ∧
        (callback.samples.length : ℤ) = Pcm.wrapInt (callback.frames * info.channels) := by
  constructor
  · exact fun h => ⟨h.frames_nonneg, h.count_le, h.length_eq.trans (h.wrapInt hchannels).symm⟩
  · rintro ⟨hframes, hcount, hlength⟩
    refine ⟨hframes, hcount, hlength.trans ?_⟩
    exact wrapInt_of_le (Int.mul_nonneg hframes (by omega)) hcount

end Callbacks

/-! ## The buffering consumer -/

namespace BufferingPcmConsumer

variable {info : FlacStreamInfo} {c c' : BufferingPcmConsumer} {callback : PcmCallback}

/-- What a callback does to the consumer. -/
theorem onPcmInterleaved_eq_ok (hchannels : 1 ≤ info.channels) (hinfo : c.streamInfo = some info)
    (hcompleted : c.completed = false) :
    c.onPcmInterleaved callback = .ok c' ↔ Consistent info callback ∧
      c' = { c with
        chunks := c.chunks ++ [callback.samples]
        totalFrames := wrapLong (c.totalFrames + callback.frames)
        totalSamples := wrapLong (c.totalSamples + callback.samples.length) } := by
  rw [onPcmInterleaved, hinfo, consistent_iff hchannels]
  simp only [checkNotNull, Option.elim_some, ok_bind, unit_bind_eq_ok_iff, check_eq_ok,
    require_eq_ok, hcompleted, true_and, pure, Except.pure, Except.ok.injEq, and_assoc,
    eq_comm (b := c')]

/-- Only consistent callbacks pass. -/
theorem consistent_of_foldlM (hchannels : 1 ≤ info.channels) {callbacks : List PcmCallback}
    (hinfo : c.streamInfo = some info) (hcompleted : c.completed = false)
    (h : callbacks.foldlM onPcmInterleaved c = .ok c') :
    ∀ callback ∈ callbacks, Consistent info callback := by
  induction callbacks generalizing c with
  | nil => exact nofun
  | cons callback callbacks ih =>
    rw [List.foldlM_cons, bind_eq_ok_iff] at h
    obtain ⟨d, hstep, hrest⟩ := h
    obtain ⟨hconsistent, rfl⟩ := (onPcmInterleaved_eq_ok hchannels hinfo hcompleted).mp hstep
    exact List.forall_mem_cons.mpr ⟨hconsistent, ih (by exact hinfo) (by exact hcompleted) hrest⟩

/-- Consistent callbacks are collected and counted. -/
theorem foldlM_onPcmInterleaved (hchannels : 1 ≤ info.channels) {callbacks : List PcmCallback}
    (hinfo : c.streamInfo = some info) (hcompleted : c.completed = false)
    (hconsistent : ∀ callback ∈ callbacks, Consistent info callback)
    (hframes : 0 ≤ c.totalFrames) (hsamples : 0 ≤ c.totalSamples)
    (hframesLe : c.totalFrames + frameCount callbacks ≤ longMax)
    (hsamplesLe : c.totalSamples + sampleCount callbacks ≤ longMax) :
    callbacks.foldlM onPcmInterleaved c = .ok { c with
      chunks := c.chunks ++ callbacks.map (·.samples)
      totalFrames := c.totalFrames + frameCount callbacks
      totalSamples := c.totalSamples + sampleCount callbacks } := by
  induction callbacks generalizing c with
  | nil => simp [pure, Except.pure]
  | cons callback callbacks ih =>
    obtain ⟨hfirst, hrest⟩ := List.forall_mem_cons.mp hconsistent
    have hcallback := hfirst.frames_nonneg
    have hcount := frameCount_nonneg hrest
    rw [frameCount_cons] at hframesLe
    rw [sampleCount_cons, Int.natCast_add] at hsamplesLe
    have hstep := (onPcmInterleaved_eq_ok hchannels hinfo hcompleted).mpr ⟨hfirst, rfl⟩
    rw [wrapLong_of_le (by omega) (by omega), wrapLong_of_le (by omega) (by omega)] at hstep
    have hcollect := ih (c := { c with
      chunks := c.chunks ++ [callback.samples]
      totalFrames := c.totalFrames + callback.frames
      totalSamples := c.totalSamples + callback.samples.length }) hinfo hcompleted hrest
      (by dsimp only; omega) (by dsimp only; omega) (by dsimp only; omega) (by dsimp only; omega)
    rw [List.foldlM_cons, hstep, ok_bind, hcollect]
    simp [Int.add_assoc]

end BufferingPcmConsumer

/-! ## Chunks -/

section Chunks

variable {info : FlacStreamInfo} {callback : PcmCallback} {first : ℤ}

/-- The chunk of a callback. -/
structure IsChunk (info : FlacStreamInfo) (callback : PcmCallback) (first : ℤ)
    (chunk : FlacInterleavedPcmChunk) : Prop where
  streamInfo : chunk.streamInfo = info
  interleavedSamples : chunk.interleavedSamples = callback.samples
  frames : chunk.frames = callback.frames
  firstFrameIndex : chunk.firstFrameIndex = first

theorem IsChunk.unique {chunk chunk' : FlacInterleavedPcmChunk}
    (h : IsChunk info callback first chunk) (h' : IsChunk info callback first chunk') :
    chunk = chunk' := by
  cases chunk
  cases chunk'
  obtain ⟨rfl, rfl, rfl, rfl⟩ := h
  obtain ⟨rfl, rfl, hframes, rfl⟩ := h'
  dsimp only at hframes
  subst hframes
  rfl

theorem exists_isChunk (hchannels : 1 ≤ info.channels) (hfirst : 0 ≤ first)
    (h : Consistent info callback) : ∃ chunk, IsChunk info callback first chunk :=
  ⟨⟨info, callback.samples, callback.frames, first, h.frames_nonneg, hfirst, h.count_le,
    h.length_eq.trans (h.wrapInt hchannels).symm⟩, rfl, rfl, rfl, rfl⟩

/-- A chunk is made of consistent callbacks only. -/
theorem FlacInterleavedPcmChunk.new_eq_ok (hchannels : 1 ≤ info.channels) (hfirst : 0 ≤ first)
    (chunk : FlacInterleavedPcmChunk) :
    FlacInterleavedPcmChunk.new info callback.samples callback.frames first = .ok chunk ↔
      Consistent info callback ∧ IsChunk info callback first chunk := by
  rw [consistent_iff hchannels, FlacInterleavedPcmChunk.new]
  constructor
  · intro h
    split at h
    case isFalse => cases h
    split at h
    case isFalse => cases h
    split at h
    case isFalse => cases h
    rename_i hframes hcount hlength
    obtain rfl := Except.ok.inj h
    exact ⟨⟨hframes, hcount, hlength⟩, rfl, rfl, rfl, rfl⟩
  · rintro ⟨⟨hframes, hcount, hlength⟩, hchunk⟩
    rw [dif_pos hframes, dif_pos hfirst, dif_pos hcount, dif_pos hlength]
    exact congrArg Except.ok (IsChunk.unique ⟨rfl, rfl, rfl, rfl⟩ hchunk)

/-- The number of samples of a chunk. -/
theorem FlacInterleavedPcmChunk.length_interleavedSamples (chunk : FlacInterleavedPcmChunk)
    (hchannels : 1 ≤ chunk.streamInfo.channels) :
    chunk.interleavedSamples.length =
      chunk.frames.toNat * chunk.streamInfo.channels.toNat := by
  have hlength := chunk.length_eq
  rw [wrapInt_of_le (Int.mul_nonneg chunk.frames_nonneg (by omega)) chunk.count_le] at hlength
  have hproduct : ((chunk.frames.toNat * chunk.streamInfo.channels.toNat : ℕ) : ℤ) =
      chunk.frames * chunk.streamInfo.channels := by
    rw [Int.natCast_mul, Int.toNat_of_nonneg chunk.frames_nonneg, Int.toNat_of_nonneg (by omega)]
  omega

/-- The channel chunk of a chunk. -/
structure SplitOf (chunk : FlacInterleavedPcmChunk) (split : FlacChannelPcmChunk) : Prop where
  streamInfo : split.streamInfo = chunk.streamInfo
  channelSamples : split.channelSamples = chunk.splitByChannel
  frames : split.frames = chunk.frames
  firstFrameIndex : split.firstFrameIndex = chunk.firstFrameIndex

/-- Every chunk can be split. -/
theorem FlacInterleavedPcmChunk.toChannelChunk_ok (chunk : FlacInterleavedPcmChunk)
    (hchannels : 1 ≤ chunk.streamInfo.channels) :
    ∃ split, chunk.toChannelChunk = .ok split ∧ SplitOf chunk split := by
  have hlength : (chunk.splitByChannel.length : ℤ) = chunk.streamInfo.channels := by
    rw [splitByChannel, deal_eq, length_table]
    omega
  have hlengths : ∀ samples ∈ chunk.splitByChannel, (samples.length : ℤ) = chunk.frames := by
    intro samples hsamples
    rw [splitByChannel, deal_eq] at hsamples
    rw [length_of_mem_table hsamples, Int.toNat_of_nonneg chunk.frames_nonneg]
  refine ⟨⟨chunk.streamInfo, chunk.splitByChannel, chunk.frames, chunk.firstFrameIndex,
    chunk.frames_nonneg, chunk.firstFrameIndex_nonneg, hlength, hlengths⟩, ?_, rfl, rfl, rfl, rfl⟩
  rw [toChannelChunk, FlacChannelPcmChunk.new, dif_pos chunk.frames_nonneg,
    dif_pos chunk.firstFrameIndex_nonneg, dif_pos hlength, dif_pos hlengths]

/-- Splitting a chunk loses nothing. -/
theorem FlacInterleavedPcmChunk.interleave_splitByChannel (chunk : FlacInterleavedPcmChunk)
    (hchannels : 1 ≤ chunk.streamInfo.channels) :
    interleave 0 chunk.splitByChannel chunk.frames.toNat = chunk.interleavedSamples :=
  interleave_deal 0 _ (chunk.length_interleavedSamples hchannels)

/-- The chunks of some callbacks, from a frame index on. -/
inductive ChunksOf (info : FlacStreamInfo) :
    ℤ → List PcmCallback → List FlacInterleavedPcmChunk → Prop where
  | nil (first : ℤ) : ChunksOf info first [] []
  | cons {first : ℤ} {callback : PcmCallback} {callbacks : List PcmCallback}
      {chunk : FlacInterleavedPcmChunk} {chunks : List FlacInterleavedPcmChunk}
      (head : IsChunk info callback first chunk)
      (tail : ChunksOf info (first + callback.frames) callbacks chunks) :
      ChunksOf info first (callback :: callbacks) (chunk :: chunks)

/-- Each chunk starts where the one before it ends. -/
def Contiguous : ℤ → List FlacInterleavedPcmChunk → Prop
  | _, [] => True
  | first, chunk :: chunks =>
    chunk.firstFrameIndex = first ∧ Contiguous (first + chunk.frames) chunks

namespace ChunksOf

variable {callbacks : List PcmCallback} {chunks chunks' : List FlacInterleavedPcmChunk}

theorem unique (h : ChunksOf info first callbacks chunks)
    (h' : ChunksOf info first callbacks chunks') : chunks = chunks' := by
  induction h generalizing chunks' with
  | nil first =>
    cases h'
    rfl
  | cons head tail ih =>
    cases h' with
    | cons head' tail' => rw [head.unique head', ih tail']

/-- The samples of the chunks are those of the callbacks. -/
theorem samples (h : ChunksOf info first callbacks chunks) :
    chunks.flatMap (·.interleavedSamples) = (callbacks.map (·.samples)).flatten := by
  induction h with
  | nil first => rfl
  | cons head tail ih =>
    rw [List.flatMap_cons, List.map_cons, List.flatten_cons, ih, head.interleavedSamples]

theorem contiguous (h : ChunksOf info first callbacks chunks) : Contiguous first chunks := by
  induction h with
  | nil first => trivial
  | cons head tail ih => exact ⟨head.firstFrameIndex, by rwa [head.frames]⟩

theorem streamInfo (h : ChunksOf info first callbacks chunks) :
    ∀ chunk ∈ chunks, chunk.streamInfo = info := by
  induction h with
  | nil first => exact fun _ h => absurd h List.not_mem_nil
  | cons head tail ih => exact List.forall_mem_cons.mpr ⟨head.streamInfo, ih⟩

theorem frameCount_nonneg (h : ChunksOf info first callbacks chunks) :
    0 ≤ frameCount callbacks := by
  induction h with
  | nil first => exact Int.le_refl 0
  | @cons first callback callbacks chunk chunks head tail ih =>
    have hframes := chunk.frames_nonneg
    rw [head.frames] at hframes
    rw [frameCount_cons]
    omega

/-- Splitting the samples of all chunks is appending the splits of each. -/
theorem split (hchannels : 1 ≤ info.channels) (h : ChunksOf info first callbacks chunks)
    {flat : List ℤ} {rows : ℕ} (hflat : flat.length = rows * info.channels.toNat) :
    chunks.foldl (fun columns chunk => List.zipWith (· ++ ·) columns chunk.splitByChannel)
        (deal 0 flat info.channels.toNat rows) =
      deal 0 (flat ++ (callbacks.map (·.samples)).flatten) info.channels.toNat
        (rows + (frameCount callbacks).toNat) := by
  induction h generalizing flat rows with
  | nil first => simp
  | @cons first callback callbacks chunk chunks head tail ih =>
    have hnonneg := tail.frameCount_nonneg
    have hframes := chunk.frames_nonneg
    have hlength := chunk.length_interleavedSamples (by rwa [head.streamInfo])
    rw [head.streamInfo, head.interleavedSamples, head.frames] at hlength
    rw [head.frames] at hframes
    have hgrown : (flat ++ callback.samples).length =
        (rows + callback.frames.toNat) * info.channels.toNat := by
      rw [List.length_append, hflat, hlength, Nat.add_mul]
    have hrows : rows + callback.frames.toNat + (frameCount callbacks).toNat =
        rows + (callback.frames + frameCount callbacks).toNat := by omega
    rw [List.foldl_cons, FlacInterleavedPcmChunk.splitByChannel, head.streamInfo,
      head.interleavedSamples, head.frames, ← deal_append 0 hflat, ih hgrown, frameCount_cons,
      List.map_cons, List.flatten_cons, List.append_assoc, hrows]

end ChunksOf

end Chunks

/-! ## The consumers that forward chunks -/

namespace SummaryTrackingPcmConsumer

variable {info : FlacStreamInfo} {Chunk : Type} {c c' : SummaryTrackingPcmConsumer Chunk}
  {callback : PcmCallback} {handleChunk : FlacInterleavedPcmChunk → Except Throwable Chunk}
  {Handled : FlacInterleavedPcmChunk → Chunk → Prop}

/-- Only consistent callbacks pass. -/
theorem consistent_of_onPcmInterleaved (hchannels : 1 ≤ info.channels)
    (hinfo : c.streamInfo = some info) (hfirst : 0 ≤ c.firstFrameIndex)
    (hframes : 0 ≤ c.totalFrames) (h : onPcmInterleaved handleChunk c callback = .ok c') :
    Consistent info callback ∧ c'.streamInfo = some info ∧
      c'.firstFrameIndex = c.firstFrameIndex ∧ 0 ≤ c'.totalFrames := by
  rw [onPcmInterleaved, hinfo, checkNotNull, Option.elim_some, ok_bind] at h
  obtain ⟨-, h⟩ := unit_bind_eq_ok_iff.mp h
  obtain ⟨first, hadd, h⟩ := bind_eq_ok_iff.mp h
  obtain ⟨chunk, hchunk, h⟩ := bind_eq_ok_iff.mp h
  obtain ⟨total, htotal, h⟩ := bind_eq_ok_iff.mp h
  obtain ⟨handled, -, h⟩ := bind_eq_ok_iff.mp h
  obtain rfl := Except.ok.inj h
  rw [addExact] at hadd htotal
  split at hadd
  case isFalse => cases hadd
  split at htotal
  case isFalse => cases htotal
  obtain rfl := Except.ok.inj hadd
  obtain rfl := Except.ok.inj htotal
  obtain ⟨hconsistent, -⟩ := (FlacInterleavedPcmChunk.new_eq_ok hchannels (by omega) chunk).mp hchunk
  have hcallback := hconsistent.frames_nonneg
  exact ⟨hconsistent, rfl, rfl, by dsimp only; omega⟩

theorem consistent_of_foldlM (hchannels : 1 ≤ info.channels) {callbacks : List PcmCallback}
    (hinfo : c.streamInfo = some info) (hfirst : 0 ≤ c.firstFrameIndex)
    (hframes : 0 ≤ c.totalFrames) (h : callbacks.foldlM (onPcmInterleaved handleChunk) c = .ok c') :
    ∀ callback ∈ callbacks, Consistent info callback := by
  induction callbacks generalizing c with
  | nil => exact nofun
  | cons callback callbacks ih =>
    rw [List.foldlM_cons, bind_eq_ok_iff] at h
    obtain ⟨d, hstep, hrest⟩ := h
    obtain ⟨hconsistent, hinfo', hfirst', hframes'⟩ :=
      consistent_of_onPcmInterleaved hchannels hinfo hfirst hframes hstep
    exact List.forall_mem_cons.mpr
      ⟨hconsistent, ih hinfo' (by rwa [hfirst']) hframes' hrest⟩

/-- Consistent callbacks are handed on as the chunks they make. -/
theorem foldlM_onPcmInterleaved (hchannels : 1 ≤ info.channels)
    (hhandle : ∀ chunk : FlacInterleavedPcmChunk, 1 ≤ chunk.streamInfo.channels →
      ∃ handled, handleChunk chunk = .ok handled ∧ Handled chunk handled)
    {callbacks : List PcmCallback} (hinfo : c.streamInfo = some info)
    (hcompleted : c.completed = false)
    (hconsistent : ∀ callback ∈ callbacks, Consistent info callback)
    (hfirst : 0 ≤ c.firstFrameIndex) (hframes : 0 ≤ c.totalFrames)
    (hframesLe : c.totalFrames + frameCount callbacks ≤ longMax)
    (hindex : c.firstFrameIndex + c.totalFrames + frameCount callbacks.dropLast ≤ longMax) :
    ∃ chunks handled, ChunksOf info (c.firstFrameIndex + c.totalFrames) callbacks chunks ∧
      List.Forall₂ Handled chunks handled ∧
      callbacks.foldlM (onPcmInterleaved handleChunk) c = .ok { c with
        totalFrames := c.totalFrames + frameCount callbacks
        received := c.received ++ handled } := by
  induction callbacks generalizing c with
  | nil => exact ⟨[], [], .nil _, .nil, by simp [pure, Except.pure]⟩
  | cons callback callbacks ih =>
    obtain ⟨hhead, hrest⟩ := List.forall_mem_cons.mp hconsistent
    have hcallback := hhead.frames_nonneg
    have hcount := frameCount_nonneg hrest
    rw [frameCount_cons] at hframesLe
    have hdropped : 0 ≤ frameCount (callback :: callbacks).dropLast :=
      frameCount_nonneg fun p hp => hconsistent p (List.dropLast_subset _ hp)
    have hnext : c.firstFrameIndex + (c.totalFrames + callback.frames) +
        frameCount callbacks.dropLast ≤ longMax ∨ callbacks = [] := by
      cases callbacks with
      | nil => exact .inr rfl
      | cons callback' callbacks =>
        rw [List.dropLast_cons_cons, frameCount_cons] at hindex
        exact .inl (by omega)
    have hfits : 0 ≤ c.firstFrameIndex + c.totalFrames := by omega
    obtain ⟨chunk, hchunk⟩ := exists_isChunk hchannels hfits hhead
    obtain ⟨handled, hhandled, hrelated⟩ := hhandle chunk (by rwa [hchunk.streamInfo])
    have hstep : onPcmInterleaved handleChunk c callback = .ok { c with
        totalFrames := c.totalFrames + callback.frames
        received := c.received ++ [handled] } := by
      rw [onPcmInterleaved, hinfo, checkNotNull, Option.elim_some, ok_bind,
        check_eq_ok.mpr hcompleted, ok_bind, addExact_of_le hfirst hframes (by omega), ok_bind,
        (FlacInterleavedPcmChunk.new_eq_ok hchannels (by omega) chunk).mpr ⟨hhead, hchunk⟩, ok_bind,
        addExact_of_le hframes hcallback (by omega), ok_bind, hhandled]
      simp only [ok_bind, pure, Except.pure]
    rw [List.foldlM_cons, hstep, ok_bind]
    rcases hnext with hnext | rfl
    · obtain ⟨chunks, rest, hchunks, hall, hrun⟩ := ih (c := { c with
        totalFrames := c.totalFrames + callback.frames
        received := c.received ++ [handled] }) hinfo hcompleted hrest hfirst
        (by dsimp only; omega) (by dsimp only; omega) hnext
      refine ⟨chunk :: chunks, handled :: rest, .cons hchunk ?_, .cons hrelated hall, ?_⟩
      · rw [Int.add_assoc]
        exact hchunks
      · rw [hrun]
        simp [Int.add_assoc]
    · refine ⟨[chunk], [handled], .cons hchunk (.nil _), .cons hrelated .nil, ?_⟩
      simp [pure, Except.pure]

end SummaryTrackingPcmConsumer

/-! ## Accepted sequences -/

/-- All callbacks are consistent, and their frame count is the expected one. -/
structure Accepted (info : FlacStreamInfo) (first : ℤ) (maxFrames : Option ℤ)
    (callbacks : List PcmCallback) : Prop where
  consistent : ∀ callback ∈ callbacks, Consistent info callback
  frameCount : validateDecodedFrameCount info first maxFrames (frameCount callbacks) = .ok ()

/-- What the claims about the views assume of a sequence. -/
structure Bounded (info : FlacStreamInfo) (first : ℤ) (maxFrames : Option ℤ)
    (callbacks : List PcmCallback) : Prop where
  channels : 1 ≤ info.channels
  range : validateDecodeRange first maxFrames = .ok ()
  samples : sampleCount callbacks ≤ intMax
  /-- The frame index at which the last callback starts. -/
  index : first + frameCount callbacks.dropLast ≤ longMax

section Accepted

variable {info : FlacStreamInfo} {first : ℤ} {maxFrames : Option ℤ} {callbacks : List PcmCallback}

theorem Bounded.first_nonneg (h : Bounded info first maxFrames callbacks) : 0 ≤ first := by
  have hrange := h.range
  rw [validateDecodeRange, unit_bind_eq_ok_iff, require_eq_ok] at hrange
  exact hrange.1

theorem Bounded.frameCount_le (h : Bounded info first maxFrames callbacks)
    (hconsistent : ∀ callback ∈ callbacks, Consistent info callback) :
    frameCount callbacks ≤ intMax :=
  Int.le_trans (Pcm.frameCount_le h.channels hconsistent) (Int.ofNat_le.mpr h.samples)

/-- The audio of an accepted sequence. -/
structure AudioOf (info : FlacStreamInfo) (callbacks : List PcmCallback)
    (audio : FlacDecodedAudio) : Prop where
  streamInfo : audio.streamInfo = info
  interleavedSamples : audio.interleavedSamples = (callbacks.map (·.samples)).flatten
  totalFrames : audio.totalFrames = frameCount callbacks

theorem length_samples (callbacks : List PcmCallback) :
    (callbacks.map (·.samples)).flatten.length = sampleCount callbacks := by
  rw [List.length_flatten, List.map_map]
  rfl

/-- The buffered samples are as many as the constructor wants. -/
theorem exists_audioOf (h : Bounded info first maxFrames callbacks)
    (hconsistent : ∀ callback ∈ callbacks, Consistent info callback) :
    ∃ audio, FlacDecodedAudio.new info (callbacks.map (·.samples)).flatten (frameCount callbacks) =
      .ok audio ∧ AudioOf info callbacks audio := by
  have hnonneg := frameCount_nonneg hconsistent
  have hsamples := sampleCount_eq hconsistent
  have hle : (sampleCount callbacks : ℤ) ≤ intMax := Int.ofNat_le.mpr h.samples
  have hlong : wrapLong (frameCount callbacks * info.channels) = sampleCount callbacks := by
    rw [← hsamples]
    exact wrapLong_of_le (Int.natCast_nonneg _) (le_longMax_of_le_intMax hle)
  have hcount : wrapLong (frameCount callbacks * info.channels) ≤ intMax := hlong.trans_le hle
  have hlength : ((callbacks.map (·.samples)).flatten.length : ℤ) =
      wrapInt (wrapLong (frameCount callbacks * info.channels)) := by
    rw [hlong, wrapInt_of_le (Int.natCast_nonneg _) hle, length_samples]
  refine ⟨⟨info, _, frameCount callbacks, hnonneg, hcount, hlength⟩, ?_, rfl, rfl, rfl⟩
  rw [FlacDecodedAudio.new, dif_pos hnonneg, dif_pos hcount, dif_pos hlength]

/-- The buffering consumer accepts these sequences. -/
theorem BufferingPcmConsumer.decode_ok (h : Bounded info first maxFrames callbacks)
    (haccepted : Accepted info first maxFrames callbacks) :
    ∃ audio, decode first maxFrames info callbacks = .ok audio ∧ AudioOf info callbacks audio := by
  obtain ⟨audio, hnew, haudio⟩ := exists_audioOf h haccepted.consistent
  refine ⟨audio, ?_, haudio⟩
  have hframes := h.frameCount_le haccepted.consistent
  have hsamples : (sampleCount callbacks : ℤ) ≤ intMax := Int.ofNat_le.mpr h.samples
  have hrun := foldlM_onPcmInterleaved (c := ⟨first, maxFrames, some info, [], 0, 0, false⟩)
    h.channels rfl rfl haccepted.consistent (Int.le_refl 0) (Int.le_refl 0)
    (by simpa using le_longMax_of_le_intMax hframes)
    (by simpa using le_longMax_of_le_intMax hsamples)
  rw [decode, new, h.range]
  simp only [ok_bind, pure, Except.pure, onStreamInfo, Option.isNone_none, check_eq_ok.mpr]
  rw [hrun, ok_bind, onComplete, toDecodedAudio]
  simp only [checkNotNull, Option.elim_some, ok_bind, List.nil_append, Int.zero_add,
    check_eq_ok.mpr, hsamples, haccepted.frameCount, hnew]

/-- No other sequence is accepted. -/
theorem BufferingPcmConsumer.accepted_of_decode (h : Bounded info first maxFrames callbacks)
    {audio : FlacDecodedAudio} (hdecode : decode first maxFrames info callbacks = .ok audio) :
    Accepted info first maxFrames callbacks := by
  rw [decode, new, h.range] at hdecode
  simp only [ok_bind, pure, Except.pure, onStreamInfo, Option.isNone_none, check_eq_ok.mpr]
    at hdecode
  obtain ⟨c, hfold, haudio⟩ := bind_eq_ok_iff.mp hdecode
  have hconsistent := consistent_of_foldlM h.channels rfl rfl hfold
  refine ⟨hconsistent, ?_⟩
  have hframes := h.frameCount_le hconsistent
  have hsamples : (sampleCount callbacks : ℤ) ≤ intMax := Int.ofNat_le.mpr h.samples
  rw [foldlM_onPcmInterleaved h.channels rfl rfl hconsistent (Int.le_refl 0) (Int.le_refl 0)
    (by simpa using le_longMax_of_le_intMax hframes)
    (by simpa using le_longMax_of_le_intMax hsamples)] at hfold
  obtain rfl := Except.ok.inj hfold
  rw [onComplete, toDecodedAudio, checkNotNull, Option.elim_some, ok_bind, unit_bind_eq_ok_iff,
    unit_bind_eq_ok_iff, unit_bind_eq_ok_iff] at haudio
  simpa using haudio.2.2.1

/-- A forwarding consumer accepts these sequences and hands on their chunks. -/
theorem SummaryTrackingPcmConsumer.decode_ok {Chunk : Type}
    {handleChunk : FlacInterleavedPcmChunk → Except Throwable Chunk}
    {Handled : FlacInterleavedPcmChunk → Chunk → Prop}
    (hhandle : ∀ chunk : FlacInterleavedPcmChunk, 1 ≤ chunk.streamInfo.channels →
      ∃ handled, handleChunk chunk = .ok handled ∧ Handled chunk handled)
    (h : Bounded info first maxFrames callbacks)
    (haccepted : Accepted info first maxFrames callbacks) :
    ∃ chunks handled summary, ChunksOf info first callbacks chunks ∧
      List.Forall₂ Handled chunks handled ∧ summary.totalFrames = Pcm.frameCount callbacks ∧
      decode handleChunk first maxFrames info callbacks = .ok (handled, summary) := by
  have hnonneg := frameCount_nonneg haccepted.consistent
  have hframes := h.frameCount_le haccepted.consistent
  obtain ⟨chunks, handled, hchunks, hall, hrun⟩ := foldlM_onPcmInterleaved
    (c := ⟨first, maxFrames, some info, 0, false, []⟩) h.channels hhandle rfl rfl
    haccepted.consistent h.first_nonneg (Int.le_refl 0)
    (by simpa using le_longMax_of_le_intMax hframes) (by simpa using h.index)
  rw [Int.add_zero] at hchunks
  refine ⟨chunks, handled, ⟨info, Pcm.frameCount callbacks, hnonneg⟩, hchunks, hall, rfl, ?_⟩
  rw [decode, new, h.range]
  simp only [ok_bind, pure, Except.pure, onStreamInfo, Option.isNone_none, check_eq_ok.mpr]
  rw [hrun, ok_bind, onComplete, summary]
  simp only [checkNotNull, Option.elim_some, ok_bind, List.nil_append, Int.zero_add,
    check_eq_ok.mpr, haccepted.frameCount, FlacDecodeSummary.new, dif_pos hnonneg, pure,
    Except.pure]

/-- No other sequence is accepted. -/
theorem SummaryTrackingPcmConsumer.accepted_of_decode {Chunk : Type}
    {handleChunk : FlacInterleavedPcmChunk → Except Throwable Chunk}
    {Handled : FlacInterleavedPcmChunk → Chunk → Prop}
    (hhandle : ∀ chunk : FlacInterleavedPcmChunk, 1 ≤ chunk.streamInfo.channels →
      ∃ handled, handleChunk chunk = .ok handled ∧ Handled chunk handled)
    (h : Bounded info first maxFrames callbacks) {result : List Chunk × FlacDecodeSummary}
    (hdecode : decode handleChunk first maxFrames info callbacks = .ok result) :
    Accepted info first maxFrames callbacks := by
  rw [decode, new, h.range] at hdecode
  simp only [ok_bind, pure, Except.pure, onStreamInfo, Option.isNone_none, check_eq_ok.mpr]
    at hdecode
  obtain ⟨c, hfold, hcompleted⟩ := bind_eq_ok_iff.mp hdecode
  have hconsistent := consistent_of_foldlM h.channels rfl h.first_nonneg (Int.le_refl 0) hfold
  refine ⟨hconsistent, ?_⟩
  have hframes := h.frameCount_le hconsistent
  obtain ⟨chunks, handled, -, -, hrun⟩ := foldlM_onPcmInterleaved
    (c := ⟨first, maxFrames, some info, 0, false, []⟩) h.channels hhandle rfl rfl hconsistent
    h.first_nonneg (Int.le_refl 0) (by simpa using le_longMax_of_le_intMax hframes)
    (by simpa using h.index)
  obtain rfl := Except.ok.inj (hfold.symm.trans hrun)
  obtain ⟨⟨d, summary⟩, hsummary, -⟩ := bind_eq_ok_iff.mp hcompleted
  rw [onComplete, SummaryTrackingPcmConsumer.summary, checkNotNull, Option.elim_some] at hsummary
  obtain ⟨summary', hsummary', -⟩ := bind_eq_ok_iff.mp hsummary
  rw [ok_bind, unit_bind_eq_ok_iff, unit_bind_eq_ok_iff] at hsummary'
  simpa using hsummary'.2.1

end Accepted

/-! ## The views -/

/-- The three views of one decode show the same frames. -/
structure SameAudio (first : ℤ) (audio : FlacDecodedAudio) (chunks : List FlacInterleavedPcmChunk)
    (summary : FlacDecodeSummary) (splits : List FlacChannelPcmChunk)
    (splitSummary : FlacDecodeSummary) : Prop where
  contiguous : Contiguous first chunks
  samples : chunks.flatMap (·.interleavedSamples) = audio.interleavedSamples
  splitOf : List.Forall₂ SplitOf chunks splits
  rejoined : ∀ chunk ∈ chunks,
    interleave 0 chunk.splitByChannel chunk.frames.toNat = chunk.interleavedSamples
  appended : audio.splitByChannel = .ok (splits.foldl
    (fun columns split => List.zipWith (· ++ ·) columns split.channelSamples)
    (List.replicate audio.streamInfo.channels.toNat []))
  totalFrames : summary.totalFrames = audio.totalFrames
  splitTotalFrames : splitSummary.totalFrames = audio.totalFrames

/-- The consumers accept the same sequences, and show the same frames of those they accept. -/
structure ViewsAgree (info : FlacStreamInfo) (first : ℤ) (maxFrames : Option ℤ)
    (callbacks : List PcmCallback) : Prop where
  interleaved : (∃ audio, BufferingPcmConsumer.decode first maxFrames info callbacks = .ok audio) ↔
    ∃ result, decodeInterleavedChunks first maxFrames info callbacks = .ok result
  channels : (∃ audio, BufferingPcmConsumer.decode first maxFrames info callbacks = .ok audio) ↔
    ∃ result, decodeChannelChunks first maxFrames info callbacks = .ok result
  views : ∀ audio chunks summary splits splitSummary,
    BufferingPcmConsumer.decode first maxFrames info callbacks = .ok audio →
    decodeInterleavedChunks first maxFrames info callbacks = .ok (chunks, summary) →
    decodeChannelChunks first maxFrames info callbacks = .ok (splits, splitSummary) →
    SameAudio first audio chunks summary splits splitSummary

section Views

variable {info : FlacStreamInfo} {first : ℤ} {maxFrames : Option ℤ} {callbacks : List PcmCallback}

theorem handle_interleaved (chunk : FlacInterleavedPcmChunk)
    (_ : 1 ≤ chunk.streamInfo.channels) :
    ∃ handled, (Except.ok chunk : Except Throwable FlacInterleavedPcmChunk) = .ok handled ∧
      chunk = handled :=
  ⟨chunk, rfl, rfl⟩

/-- Appending the arrays of the channel chunks is splitting the chunks and appending. -/
theorem foldl_channelSamples {chunks : List FlacInterleavedPcmChunk}
    {splits : List FlacChannelPcmChunk} (h : List.Forall₂ SplitOf chunks splits)
    (columns : List (List ℤ)) :
    splits.foldl (fun columns split => List.zipWith (· ++ ·) columns split.channelSamples) columns =
      chunks.foldl (fun columns chunk => List.zipWith (· ++ ·) columns chunk.splitByChannel)
        columns := by
  induction h generalizing columns with
  | nil => rfl
  | cons hsplit _ ih => rw [List.foldl_cons, List.foldl_cons, hsplit.channelSamples, ih]

theorem sameAudio_of_accepted (h : Bounded info first maxFrames callbacks)
    {audio : FlacDecodedAudio} (haudio : AudioOf info callbacks audio)
    {chunks : List FlacInterleavedPcmChunk} (hchunks : ChunksOf info first callbacks chunks)
    {splits : List FlacChannelPcmChunk} (hsplits : List.Forall₂ SplitOf chunks splits)
    {summary splitSummary : FlacDecodeSummary}
    (hsummary : summary.totalFrames = frameCount callbacks)
    (hsplitSummary : splitSummary.totalFrames = frameCount callbacks)
    (hframes : frameCount callbacks ≤ intMax) :
    SameAudio first audio chunks summary splits splitSummary where
  contiguous := hchunks.contiguous
  samples := hchunks.samples.trans haudio.interleavedSamples.symm
  splitOf := hsplits
  rejoined chunk hchunk := by
    refine chunk.interleave_splitByChannel ?_
    rw [hchunks.streamInfo chunk hchunk]
    exact h.channels
  appended := by
    have hnone : ([] : List ℤ).length = 0 * info.channels.toNat := by simp
    have hfirst := hchunks.split h.channels hnone
    rw [deal_nil, List.nil_append, Nat.zero_add] at hfirst
    rw [FlacDecodedAudio.splitByChannel, haudio.streamInfo, haudio.interleavedSamples,
      haudio.totalFrames, require_eq_ok.mpr hframes, foldl_channelSamples hsplits, hfirst]
    rfl
  totalFrames := hsummary.trans haudio.totalFrames.symm
  splitTotalFrames := hsplitSummary.trans haudio.totalFrames.symm

/-- All JVM views of one decode agree. -/
theorem decodeViews_agree (h : Bounded info first maxFrames callbacks) :
    ViewsAgree info first maxFrames callbacks := by
  constructor
  case interleaved =>
    constructor
    · rintro ⟨audio, haudio⟩
      obtain ⟨chunks, handled, summary, -, -, -, hdecode⟩ := SummaryTrackingPcmConsumer.decode_ok
        handle_interleaved h (BufferingPcmConsumer.accepted_of_decode h haudio)
      exact ⟨_, hdecode⟩
    · rintro ⟨result, hresult⟩
      obtain ⟨audio, haudio, -⟩ := BufferingPcmConsumer.decode_ok h
        (SummaryTrackingPcmConsumer.accepted_of_decode handle_interleaved h hresult)
      exact ⟨audio, haudio⟩
  case channels =>
    constructor
    · rintro ⟨audio, haudio⟩
      obtain ⟨chunks, handled, summary, -, -, -, hdecode⟩ := SummaryTrackingPcmConsumer.decode_ok
        FlacInterleavedPcmChunk.toChannelChunk_ok h
        (BufferingPcmConsumer.accepted_of_decode h haudio)
      exact ⟨_, hdecode⟩
    · rintro ⟨result, hresult⟩
      obtain ⟨audio, haudio, -⟩ := BufferingPcmConsumer.decode_ok h
        (SummaryTrackingPcmConsumer.accepted_of_decode FlacInterleavedPcmChunk.toChannelChunk_ok h
          hresult)
      exact ⟨audio, haudio⟩
  case views =>
    intro audio chunks summary splits splitSummary haudio hchunks hsplits
    have haccepted := BufferingPcmConsumer.accepted_of_decode h haudio
    obtain ⟨audio', haudio', hshown⟩ := BufferingPcmConsumer.decode_ok h haccepted
    obtain ⟨chunks', _, summary', hchunks', hsame, hsummary, hdecode⟩ :=
      SummaryTrackingPcmConsumer.decode_ok handle_interleaved h haccepted
    obtain ⟨chunks'', splits', splitSummary', hchunks'', hall, hsplitSummary, hdecode'⟩ :=
      SummaryTrackingPcmConsumer.decode_ok FlacInterleavedPcmChunk.toChannelChunk_ok h haccepted
    obtain rfl := Except.ok.inj (haudio.symm.trans haudio')
    obtain ⟨rfl, rfl⟩ := Prod.mk.inj (Except.ok.inj (hchunks.symm.trans hdecode))
    obtain ⟨rfl, rfl⟩ := Prod.mk.inj (Except.ok.inj (hsplits.symm.trans hdecode'))
    obtain rfl := hchunks'.unique hchunks''
    obtain rfl := List.forall₂_eq_eq_eq ▸ hsame
    exact sameAudio_of_accepted h hshown hchunks' hall hsummary hsplitSummary
      (h.frameCount_le haccepted.consistent)

end Views

/-- The STREAMINFO of a stream of unknown length with the given number of channels. -/
def unknownLength (channels : ℤ) : FlacStreamInfo :=
  ⟨44100, channels, 16, 0, 16, 16, 0, 0, Vector.replicate 16 0⟩

theorem decodeViews_agree_stereo :
    Bounded (unknownLength 2) 5 (some 3) [⟨[7, -8, 9, -10], 2⟩, ⟨[11, -12], 1⟩] ∧
      ViewsAgree (unknownLength 2) 5 (some 3) [⟨[7, -8, 9, -10], 2⟩, ⟨[11, -12], 1⟩] :=
  have hbounded : Bounded (unknownLength 2) 5 (some 3) [⟨[7, -8, 9, -10], 2⟩, ⟨[11, -12], 1⟩] :=
    ⟨by decide, by decide, by decide, by decide⟩
  ⟨hbounded, decodeViews_agree hbounded⟩

/-- Behind the last frame that a `Long` can count, an empty callback is one that only the buffering
consumer accepts. -/
theorem decodeViews_differ :
    1 ≤ (unknownLength 1).channels ∧ validateDecodeRange longMax none = .ok () ∧
      sampleCount [⟨[7], 1⟩, ⟨[], 0⟩] ≤ intMax ∧
      longMax + (frameCount [⟨[7], 1⟩, ⟨[], 0⟩] - 1) ≤ longMax ∧
      (∃ audio, BufferingPcmConsumer.decode longMax none (unknownLength 1) [⟨[7], 1⟩, ⟨[], 0⟩] =
        .ok audio) ∧
      decodeInterleavedChunks longMax none (unknownLength 1) [⟨[7], 1⟩, ⟨[], 0⟩] =
        .error longOverflow ∧
      decodeChannelChunks longMax none (unknownLength 1) [⟨[7], 1⟩, ⟨[], 0⟩] =
        .error longOverflow := by
  refine ⟨by decide, by decide, by decide, by decide, ?_, by decide, by decide⟩
  exact ⟨⟨unknownLength 1, [7], 1, by decide, by decide, by decide⟩, by decide⟩

end JFlac.Pcm
