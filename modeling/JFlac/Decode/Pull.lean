import JFlac.Decode.Blocks
import JFlac.Decode.Deliveries
import JFlac.Decode.Processed

/-!
# One pull read

A pull read copies PCM out of the block that is held back, then asks libFLAC for further blocks
until the request is filled or the stream ends. `HoldsBack` and `Reading` describe the context in
terms of rows: what is held back, and what was written into the caller's array so far. Draining,
the write callback and the loop are each described once in these terms.
-/

namespace JFlac.Decode

open Machine Lib

variable {D : Type}

/-! ## Writing into the array -/

theorem length_setIntArrayRegion {array samples : List Sample} {start : ℕ}
    (h : start + samples.length ≤ array.length) :
    (setIntArrayRegion array start samples).length = array.length := by
  simp only [setIntArrayRegion, List.length_append, List.length_take, List.length_drop]
  omega

theorem take_setIntArrayRegion {array samples : List Sample} {start : ℕ}
    (h : start ≤ array.length) :
    (setIntArrayRegion array start samples).take (start + samples.length) =
      array.take start ++ samples := by
  have hlength : (array.take start ++ samples).length = start + samples.length := by
    rw [List.length_append, List.length_take, Nat.min_eq_left h]
  rw [setIntArrayRegion, ← hlength, List.take_left]

/-! ## Rows held back and rows written -/

/-- The rows of the pending block that were not copied yet. -/
inductive HoldsBack (width : ℕ) (c : DecodeContext) : List (List Sample) → Prop
  | nothing (hsamples : c.pullPendingSamples = none) : HoldsBack width c []
  | block (samples : List Sample) (rows : List (List Sample))
      (hsamples : c.pullPendingSamples = some samples)
      (hcount : c.pullPendingSampleCount = samples.length) (hsize : samples.length ≤ intMax)
      (hrows : samples.drop c.pullPendingSampleOffset = rows.flatten)
      (hwidth : HasWidth width rows) (hpos : 0 < rows.length)
      (hoffset : c.pullPendingSampleOffset + rows.length * width = samples.length) :
      HoldsBack width c rows

/-- A read that was asked for `request` frames and has written `got`, in a session that had handed
out `before` frames when the read began. -/
structure Reading (width request before : ℕ) (got : List (List Sample)) (c : DecodeContext) :
    Prop where
  channels : c.pullChannels = width
  requested : c.pullRequestedFrames = request
  written : c.pullWrittenFrames = got.length
  emitted : c.emittedFrames = before + got.length
  le : got.length ≤ request
  rows : HasWidth width got
  output : ∃ out, c.pullOutput = some out ∧ c.pullOutputCapacitySamples = out.length ∧
    request * width ≤ out.length ∧ out.take (got.length * width) = got.flatten

/-- The fields that a pull read only consults. -/
def DecodeContext.streamFields (c : DecodeContext) : Bool × Bool × ℕ × StreamInfo × Bool :=
  (c.sawError, c.sawStreamInfo, c.streamTotalSamples, c.streamInfo, c.pullEndOfStream)

theorem releaseDrained_streamFields (c : DecodeContext) :
    c.releaseDrained.streamFields = c.streamFields := by
  unfold DecodeContext.releaseDrained
  split <;> rfl

theorem copyOut_streamFields (c : DecodeContext) (offset frames : ℕ) (samples : List Sample) :
    (c.copyOut offset frames samples).streamFields = c.streamFields := rfl

/-- Releasing the pending block does not touch what was written. -/
theorem Reading.releaseDrained {width request before : ℕ} {got : List (List Sample)}
    {c : DecodeContext} (h : Reading width request before got c) :
    Reading width request before got c.releaseDrained := by
  unfold DecodeContext.releaseDrained
  split
  · exact ⟨h.channels, h.requested, h.written, h.emitted, h.le, h.rows, h.output⟩
  · exact h

theorem Reading.clear {width request before : ℕ} {got : List (List Sample)}
    {c : DecodeContext} (h : Reading width request before got c) :
    Reading width request before got c.clearDecodePullPending :=
  ⟨h.channels, h.requested, h.written, h.emitted, h.le, h.rows, h.output⟩

/-- Copying `frames` rows to the place after those already written. -/
theorem Reading.copyOut {width request before : ℕ} {got rows : List (List Sample)}
    {c : DecodeContext} (h : Reading width request before got c)
    (hrequest : request < 4294967296) (hwidth : HasWidth width rows)
    (hle : got.length + rows.length ≤ request) :
    Reading width request before (got ++ rows)
      (c.copyOut (got.length * width) rows.length rows.flatten) := by
  have hlength : rows.flatten.length = rows.length * width := hwidth.length_flatten
  obtain ⟨out, hout, hcapacity, hfits, htake⟩ := h.output
  have hbound : (got.length + rows.length) * width ≤ request * width :=
    Nat.mul_le_mul_right _ hle
  rw [Nat.add_mul] at hbound
  have hfit : got.length * width + rows.flatten.length ≤ out.length := by omega
  have hwritten : add32 c.pullWrittenFrames rows.length = got.length + rows.length := by
    rw [h.written, add32_of_lt (by omega)]
  refine ⟨h.channels, h.requested, ?_, ?_, ?_, h.rows.append hwidth, ?_⟩
  · rw [List.length_append]
    exact hwritten
  · have hemitted : c.emittedFrames + rows.length = before + (got ++ rows).length := by
      rw [h.emitted, List.length_append]
      omega
    exact hemitted
  · rw [List.length_append]
    exact hle
  · refine ⟨setIntArrayRegion out (got.length * width) rows.flatten, ?_, ?_, ?_, ?_⟩
    · have houtput : (c.copyOut (got.length * width) rows.length rows.flatten).pullOutput =
          c.pullOutput.map fun array =>
            setIntArrayRegion array (got.length * width) rows.flatten := rfl
      rw [houtput, hout, Option.map_some]
    · rw [length_setIntArrayRegion hfit]
      exact hcapacity
    · rw [length_setIntArrayRegion hfit]
      exact hfits
    · have hindex : (got ++ rows).length * width =
          got.length * width + rows.flatten.length := by
        rw [List.length_append, Nat.add_mul, hlength]
      rw [hindex, take_setIntArrayRegion (by omega), htake, List.flatten_append]

/-! ## Draining -/

/-- The block after its first `frames` remaining rows were copied: the rest is held back, and the
block is released when there is no rest. -/
theorem HoldsBack.copied {width : ℕ} {c : DecodeContext} {samples : List Sample}
    {rows : List (List Sample)} (hwidth : 0 < width)
    (hsamples : c.pullPendingSamples = some samples)
    (hcount : c.pullPendingSampleCount = samples.length) (hsize : samples.length ≤ intMax)
    (hrows : samples.drop c.pullPendingSampleOffset = rows.flatten) (hrect : HasWidth width rows)
    (hoffset : c.pullPendingSampleOffset + rows.length * width = samples.length)
    (hchannels : c.pullChannels = width) {frames : ℕ} (hframes : frames ≤ rows.length)
    (start : ℕ) (copied : List Sample) :
    HoldsBack width (c.copyOut start frames copied).releaseDrained (rows.drop frames) := by
  have hsplit : rows.length * width = frames * width + (rows.length - frames) * width := by
    rw [← Nat.add_mul, Nat.add_sub_cancel' hframes]
  simp only [intMax] at hsize
  have hmul : mul32 frames c.pullChannels = frames * width := by
    rw [hchannels, mul32_of_lt (by omega)]
  have hnew : (c.copyOut start frames copied).pullPendingSampleOffset =
      c.pullPendingSampleOffset + frames * width := by
    show add32 c.pullPendingSampleOffset (mul32 frames c.pullChannels) = _
    rw [hmul, add32_of_lt (by omega)]
  have hsamples' : (c.copyOut start frames copied).pullPendingSamples = some samples := hsamples
  have hcount' : (c.copyOut start frames copied).pullPendingSampleCount = samples.length := hcount
  generalize c.copyOut start frames copied = c' at hnew hsamples' hcount'
  unfold DecodeContext.releaseDrained
  split
  · rename_i hdone
    rw [hcount', hnew] at hdone
    have hall : rows.length ≤ frames := by
      have hrest : (rows.length - frames) * width = 0 := by omega
      have hzero := (Nat.mul_eq_zero.mp hrest).resolve_right (by omega)
      omega
    rw [List.drop_eq_nil_of_le hall]
    exact .nothing rfl
  · rename_i hleft
    rw [hcount', hnew] at hleft
    have hless : frames < rows.length := by
      by_contra hge
      have hzero : rows.length - frames = 0 := by omega
      rw [hzero, Nat.zero_mul] at hsplit
      omega
    refine .block samples _ hsamples' hcount' (by simp only [intMax]; omega) ?_
      (hrect.drop frames) (by rw [List.length_drop]; omega) ?_
    · rw [hnew, ← List.drop_drop, hrows, hrect.flatten_drop]
    · rw [hnew, List.length_drop]
      omega

theorem take_min_length {α : Type*} (rows : List α) (n : ℕ) :
    rows.take (min rows.length n) = rows.take n ∧ rows.drop (min rows.length n) = rows.drop n := by
  rcases Nat.le_total rows.length n with h | h
  · rw [Nat.min_eq_left h, List.take_length, List.drop_length, List.take_of_length_le h,
      List.drop_eq_nil_of_le h]
    exact ⟨rfl, rfl⟩
  · rw [Nat.min_eq_right h]
    exact ⟨rfl, rfl⟩

/-- Draining fills the request from the rows held back, and keeps the others. -/
theorem drainDecodePullPending_reading {m : Machine} (hnone : m.pending = none)
    {width request before : ℕ} {got rows : List (List Sample)} (hwidth : 0 < width)
    (hrequest : request * width ≤ intMax)
    (hreading : Reading width request before got m.context)
    (hback : HoldsBack width m.context rows) :
    ∃ c, drainDecodePullPending m = (true, m.withContext c) ∧
      Reading width request before (got ++ rows.take (request - got.length)) c ∧
      HoldsBack width c (rows.drop (request - got.length)) ∧
      c.streamFields = m.context.streamFields := by
  have hrequest' : request < 4294967296 := by
    have hle : request * 1 ≤ request * width := Nat.mul_le_mul_left _ hwidth
    simp only [intMax] at hrequest
    omega
  unfold drainDecodePullPending
  dsimp only
  cases hback with
  | nothing hsamples =>
    rw [hsamples]
    refine ⟨_, rfl, ?_, ?_, rfl⟩
    · simpa using hreading.clear
    · simpa using HoldsBack.nothing rfl
  | block samples _ hsamples hcount hsize hrows hrect hpos hoffset =>
    have hrest : 1 * width ≤ rows.length * width := Nat.mul_le_mul_right _ hpos
    rw [hsamples]
    dsimp only
    rw [if_neg (by omega), if_neg (by rw [hreading.channels]; omega)]
    have hremaining : sub32 m.context.pullRequestedFrames m.context.pullWrittenFrames =
        request - got.length := by
      rw [hreading.requested, hreading.written, sub32_of_le hreading.le hrequest']
    rw [hremaining]
    by_cases hfull : request - got.length = 0
    · -- nothing more was asked for
      rw [if_pos hfull, hfull]
      refine ⟨m.context, rfl, ?_, ?_, rfl⟩
      · simpa using hreading
      · simpa using HoldsBack.block samples rows hsamples hcount hsize hrows hrect hpos hoffset
    rw [if_neg hfull]
    simp only [intMax] at hsize hrequest
    have havailable : sub32 m.context.pullPendingSampleCount m.context.pullPendingSampleOffset /
        m.context.pullChannels = rows.length := by
      rw [sub32_of_le (by omega) (by omega), hreading.channels, hcount]
      have hdifference : samples.length - m.context.pullPendingSampleOffset =
          rows.length * width := by omega
      rw [hdifference, Nat.mul_div_cancel _ hwidth]
    rw [havailable]
    generalize hframes : min rows.length (request - got.length) = frames
    have hle : frames ≤ rows.length := by omega
    have hfit : got.length + frames ≤ request := by omega
    have hbound : (got.length + frames) * width ≤ request * width := Nat.mul_le_mul_right _ hfit
    rw [Nat.add_mul] at hbound
    have hstart : mul32 m.context.pullWrittenFrames m.context.pullChannels =
        got.length * width := by
      rw [hreading.written, hreading.channels, mul32_of_lt (by omega)]
    have hsize' : mul32 frames m.context.pullChannels = frames * width := by
      rw [hreading.channels, mul32_of_lt (by omega)]
    have hcapacity : request * width ≤ m.context.pullOutputCapacitySamples := by
      obtain ⟨out, -, hcapacity, hfits, -⟩ := hreading.output
      rw [hcapacity]
      exact hfits
    rw [hstart, hsize', if_neg (by omega), if_neg (by simp [exceptionCheck, hnone]), hrows]
    have hcut : rows.flatten.take (frames * width) = (rows.take frames).flatten :=
      (hrect.flatten_take frames).symm
    have hlength : (rows.take frames).length = frames := by
      rw [List.length_take, Nat.min_eq_left hle]
    have hread := (hreading.copyOut hrequest' (hrect.take frames) (by omega)).releaseDrained
    rw [hlength] at hread
    have hcut' := take_min_length rows (request - got.length)
    rw [hframes] at hcut'
    rw [hcut, ← hcut'.1, ← hcut'.2]
    refine ⟨_, rfl, hread, ?_, ?_⟩
    · exact HoldsBack.copied hwidth hsamples hcount hsize hrows hrect hoffset hreading.channels hle
        _ _
    · rw [releaseDrained_streamFields, copyOut_streamFields]

/-! ## The write callback -/

theorem Frame.interleave_all (frame : Frame) :
    interleave frame frame.blocksize = frame.rows.flatten := by
  have hall : frame.rows.take frame.blocksize = frame.rows :=
    List.take_of_length_le (by simp)
  rw [interleave_eq frame (Nat.le_refl _), hall]

/-- A new block is held back whole. -/
theorem holdsBack_stash (c : DecodeContext) {frame : Frame} (hfits : frame.Fits) :
    HoldsBack frame.channels (c.stash frame) frame.rows := by
  have hlength : frame.rows.flatten.length = frame.blocksize * frame.channels := by
    rw [frame.rows_hasWidth.length_flatten, Frame.length_rows]
  have hcomm : frame.blocksize * frame.channels = frame.channels * frame.blocksize :=
    Nat.mul_comm _ _
  have hsize := hfits.size
  refine .block frame.rows.flatten frame.rows ?_ ?_ (by omega) rfl frame.rows_hasWidth ?_ ?_
  · rw [← frame.interleave_all]
    rfl
  · rw [hlength, hcomm]
    rfl
  · rw [Frame.length_rows]
    exact hfits.blocksize
  · have hstart : (c.stash frame).pullPendingSampleOffset = 0 := rfl
    rw [hstart, hlength, Frame.length_rows, Nat.zero_add]

/-- Outside an error, the write callback of a pull decoder that holds nothing back takes a block of
the stream's channel count, unless there is no memory for it. -/
theorem take_pull {J : Jvm} {m : Machine} {frame : Frame} (hfits : frame.Fits)
    (hnone : m.pending = none) (hpull : m.context.pullMode = true)
    (herror : m.context.sawError = false) {width request before : ℕ}
    {got : List (List Sample)} (hchannels : frame.channels = width)
    (hrequest : request * width ≤ intMax) (hreading : Reading width request before got m.context)
    (hback : HoldsBack width m.context []) :
    (J.mallocFails (m.history ++ [.writeCallback frame]) = true ∧
      ∃ m', (Delivery.pcm frame).take J m = (.abort, m') ∧ m'.pending ≠ none) ∨
    ∃ c, (Delivery.pcm frame).take J m =
        (.cont, (m.record (.writeCallback frame)).withContext c) ∧
      Reading width request before (got ++ frame.rows.take (request - got.length)) c ∧
      HoldsBack width c (frame.rows.drop (request - got.length)) ∧
      c.streamFields = m.context.streamFields := by
  have hsize := hfits.size
  have hchannelsPos := hfits.channels
  have hblocksizePos := hfits.blocksize
  have hfree : m.context.pullPendingSamples = none := by
    cases hback with
    | nothing hsamples => exact hsamples
    | block _ _ _ _ _ _ _ hpos => simp at hpos
  simp only [intMax] at hsize
  unfold Delivery.take
  dsimp only
  unfold decodeWriteCallback
  rw [if_neg (by simp [exceptionCheck, hnone]), if_neg (by simp [herror]),
    if_pos (by simpa using hpull)]
  unfold decodePullWriteCallback
  dsimp only
  rw [if_neg (by simp only [intMax]; omega), if_neg (by simp [hfree]), record_history,
    record_context]
  split
  · rename_i hmalloc
    exact .inl ⟨hmalloc, _, rfl, by simp⟩
  right
  have hstashed : Reading width request before got (m.context.stash frame) :=
    ⟨hchannels, hreading.requested, hreading.written, hreading.emitted, hreading.le,
      hreading.rows, hreading.output⟩
  have hblock : HoldsBack width (m.context.stash frame) frame.rows := by
    rw [← hchannels]
    exact holdsBack_stash m.context hfits
  obtain ⟨c, heq, hread, hrest, hfields⟩ := drainDecodePullPending_reading
    (m := (m.record (.writeCallback frame)).withContext (m.context.stash frame)) hnone
    (by omega) hrequest hstashed hblock
  rw [heq]
  exact ⟨c, rfl, hread, hrest, hfields⟩

/-! ## The loop -/

/-- What stays fixed while a pull session is read. -/
structure PullSetup (source : Source) (width first total : ℕ) (c : DecodeContext) : Prop where
  pull : c.pullMode = true
  plain : c.decodeChainedOgg = false
  source : c.source = source
  first : c.firstSample = first
  info : c.sawStreamInfo = true
  channels : c.streamInfo.channels = width
  total : c.streamTotalSamples = total

/-- Reading leaves the setup alone. -/
theorem PullSetup.of_fields {source : Source} {width first total : ℕ} {c c' : DecodeContext}
    (h : PullSetup source width first total c) (hsetup : c'.setup = c.setup)
    (hfields : c'.streamFields = c.streamFields) : PullSetup source width first total c' := by
  simp only [DecodeContext.streamFields, Prod.mk.injEq] at hfields
  obtain ⟨-, hinfo, htotal, hstreamInfo, -⟩ := hfields
  exact ⟨(congrArg Setup.pullMode hsetup).trans h.pull,
    (congrArg Setup.decodeChainedOgg hsetup).trans h.plain,
    (congrArg Setup.source hsetup).trans h.source,
    (congrArg Setup.firstSample hsetup).trans h.first, hinfo.trans h.info,
    by rw [hstreamInfo, h.channels], htotal.trans h.total⟩

/-- The audio that is still to come: the rows held back and the blocks libFLAC has not handed over,
all of which satisfy `P`. The end is only noted when there is none. -/
inductive ToCome (At : List Frame → Stream D → Prop) (P : Frame → Prop) (width limit : ℕ) (s : Stream D)
    (c : DecodeContext) : List (List Sample) → Prop
  | intro (rows : List (List Sample)) (blocks : List Frame) (hback : HoldsBack width c rows)
      (hat : At blocks s) (hblocks : ∀ b ∈ blocks, P b) (hlimit : blocks.length ≤ limit)
      (hend : c.pullEndOfStream = true → rows = [] ∧ blocks = []) :
      ToCome At P width limit s c (rows ++ rowsOf blocks)

/-- A failure of the count check at the end of the stream: `emitted` frames were handed out. -/
def EndsShort (first total emitted : ℕ) : Prop :=
  0 < total ∧ first < total ∧ emitted < total - first

theorem eofAccepted_eq_false {c : DecodeContext} (h : c.eofAccepted = false) :
    EndsShort c.firstSample c.streamTotalSamples c.emittedFrames := by
  simp only [DecodeContext.eofAccepted, Bool.or_eq_false_iff, decide_eq_false_iff_not] at h
  obtain ⟨⟨⟨-, htotal⟩, hfirst⟩, hemitted⟩ := h
  exact ⟨by omega, by omega, by omega⟩

/-- The three ways the loop of a pull read can end, for a request with `todo` still to come. -/
inductive PullLoop (J : Jvm) (At : List Frame → Stream D → Prop) (P : Frame → Prop)
    (source : Source) (width first total limit request before : ℕ)
    (got todo : List (List Sample)) (m : Machine) :
    Option Bool × Stream D × Machine → Prop
  /-- The request is filled, or the stream has ended. -/
  | left (s' : Stream D) (m' : Machine) (hnone : m'.pending = none)
      (hsetup : PullSetup source width first total m'.context)
      (hreading : Reading width request before (got ++ todo.take (request - got.length)) m'.context)
      (hcome : ToCome At P width limit s' m'.context (todo.drop (request - got.length)))
      (hend : (got ++ todo).length < request → m'.context.pullEndOfStream = true)
      (hquiet : Adds (fun e => ∀ exception, e ≠ .raised exception) m m') :
      PullLoop J At P source width first total limit request before got todo m (some true, s', m')
  /-- No memory for a block, or a stream that ends early. -/
  | failed (s' : Stream D) (m' : Machine) (hraised : m'.pending ≠ none)
      (hreason : (∃ history, J.mallocFails history = true) ∨
        EndsShort first total (before + (got ++ todo).length)) :
      PullLoop J At P source width first total limit request before got todo m (some false, s', m')
  /-- libFLAC handed over a block of another channel count. -/
  | odd (r : Option Bool × Stream D × Machine) (frame : Frame) (hblock : P frame)
      (hframe : frame.channels ≠ width) (hrecorded : Records (.writeCallback frame) m r.2.2) :
      PullLoop J At P source width first total limit request before got todo m r

/-- A round of the loop only adds to what its libFLAC call has recorded. -/
theorem pullLoop_adds_call (F : LibFlac D) (J : Jvm) (fuel : ℕ)
    (hnext : ∀ s m, Adds (fun _ => True) m (pullLoop F J fuel s m).2.2) (s : Stream D)
    {m : Machine} (hround : m.context.pullWrittenFrames < m.context.pullRequestedFrames ∧
      m.context.pullEndOfStream = false) :
    Adds (fun _ => True)
      (F.call J .processSingle (F.processSingle s.decoder) s.transportCalls m).2.2
      (pullLoop F J (fuel + 1) s m).2.2 := by
  unfold pullLoop
  rw [if_pos hround]
  generalize F.call J .processSingle _ _ m = single
  dsimp only
  split
  · exact .refl _
  split
  · exact .single (report_history _ _) trivial
  split
  · unfold validatePhysicalEofSampleCount
    split
    · exact .refl _
    · split
      · exact .of_history rfl
      · exact .single rfl trivial
  · exact .single (report_history _ _) trivial
  · exact hnext _ _

theorem pullLoop_adds (F : LibFlac D) (J : Jvm) (fuel : ℕ) (s : Stream D) (m : Machine) :
    Adds (fun _ => True) m (pullLoop F J fuel s m).2.2 := by
  induction fuel generalizing s m with
  | zero => exact .refl m
  | succ fuel ih =>
    by_cases hround : m.context.pullWrittenFrames < m.context.pullRequestedFrames ∧
        m.context.pullEndOfStream = false
    · exact (call_adds F J .processSingle _ _ m).trans (pullLoop_adds_call F J fuel ih s hround)
    · unfold pullLoop
      rw [if_neg hround]
      exact .refl m

/-- Filling a request of `k` from the block at hand, then from the rest. -/
theorem take_append_step {α : Type*} (xs ys : List α) (k : ℕ) :
    xs.take k ++ (xs.drop k ++ ys).take (k - (xs.take k).length) = (xs ++ ys).take k ∧
      (xs.drop k ++ ys).drop (k - (xs.take k).length) = (xs ++ ys).drop k := by
  rcases Nat.le_total k xs.length with h | h
  · have hlength : (xs.take k).length = k := by rw [List.length_take, Nat.min_eq_left h]
    rw [hlength, Nat.sub_self, List.take_zero, List.drop_zero, List.append_nil,
      List.take_append_of_le_length h, List.drop_append_of_le_length h]
    exact ⟨rfl, rfl⟩
  · rw [List.take_of_length_le h, List.drop_eq_nil_of_le h, List.nil_append, List.take_append,
      List.drop_append, List.take_of_length_le h, List.drop_eq_nil_of_le h, List.nil_append]
    exact ⟨rfl, rfl⟩

/-- The result of the remaining rounds, seen from before a block was taken. -/
theorem PullLoop.of_block {J : Jvm} {At : List Frame → Stream D → Prop} {P : Frame → Prop}
    {source : Source} {width first total limit request before : ℕ} {got rows rest : List (List Sample)}
    {m m₁ : Machine} {r : Option Bool × Stream D × Machine}
    (hadds : Adds (fun e => ∀ exception, e ≠ .raised exception) m m₁)
    (h : PullLoop J At P source width first total limit request before
      (got ++ rows.take (request - got.length)) (rows.drop (request - got.length) ++ rest) m₁ r) :
    PullLoop J At P source width first total limit request before got (rows ++ rest) m r := by
  have hstep := take_append_step rows rest (request - got.length)
  have hlength : (got ++ rows.take (request - got.length) ++
      (rows.drop (request - got.length) ++ rest)).length = (got ++ (rows ++ rest)).length := by
    simp only [List.length_append, List.length_take, List.length_drop]
    omega
  have hsub : request - (got ++ rows.take (request - got.length)).length =
      request - got.length - (rows.take (request - got.length)).length := by
    rw [List.length_append]
    omega
  cases h with
  | left s' m' hnone hsetup hreading hcome hend hquiet =>
    rw [hsub, List.append_assoc, hstep.1] at hreading
    rw [hsub, hstep.2] at hcome
    rw [hlength] at hend
    exact .left s' m' hnone hsetup hreading hcome hend (hadds.trans hquiet)
  | failed s' m' hraised hreason =>
    rw [hlength] at hreason
    exact .failed s' m' hraised hreason
  | odd r frame hblock hframe hrecorded =>
    exact .odd r frame hblock hframe (hrecorded.before hadds)

/-- The loop of a pull read, started where the request is filled or nothing is held back. -/
theorem pullLoop_spec {F : LibFlac D} {J : Jvm} {source : Source}
    {At : List Frame → Stream D → Prop} (hsingles : F.Singles J source At) {P : Frame → Prop}
    (hfits : ∀ b, P b → b.Fits) {width first total limit request before fuel : ℕ}
    (hrequest : request * width ≤ intMax) {got rows : List (List Sample)} {blocks : List Frame}
    {s : Stream D} {m : Machine} (hnone : m.pending = none) (herror : m.context.sawError = false)
    (hsetup : PullSetup source width first total m.context)
    (hreading : Reading width request before got m.context)
    (hback : HoldsBack width m.context rows) (hat : At blocks s) (hblocks : ∀ b ∈ blocks, P b)
    (hlimit : blocks.length ≤ limit) (hfuel : blocks.length < fuel)
    (hend : m.context.pullEndOfStream = true → rows = [] ∧ blocks = [])
    (hdone : rows = [] ∨ got.length = request) :
    PullLoop J At P source width first total limit request before got (rows ++ rowsOf blocks) m
      (pullLoop F J fuel s m) := by
  induction fuel generalizing got rows blocks s m with
  | zero => omega
  | succ fuel ih =>
    by_cases hround : m.context.pullWrittenFrames < m.context.pullRequestedFrames ∧
        m.context.pullEndOfStream = false
    swap
    · -- nothing more to do: the request is filled, or the end was noted before
      unfold pullLoop
      rw [if_neg hround]
      rw [hreading.written, hreading.requested] at hround
      have hcome : ToCome At P width limit s m.context (rows ++ rowsOf blocks) :=
        .intro rows blocks hback hat hblocks hlimit hend
      by_cases heof : m.context.pullEndOfStream = true
      · obtain ⟨rfl, rfl⟩ := hend heof
        exact .left s m hnone hsetup (by simpa using hreading) (by simpa using hcome)
          (fun _ => heof) (.refl m)
      · have hfull : got.length = request := by
          have hle := hreading.le
          by_contra hne
          exact hround ⟨by omega, by simpa using heof⟩
        have hzero : request - got.length = 0 := by omega
        refine .left s m hnone hsetup ?_ ?_ (fun hlt => ?_) (.refl m)
        · simpa [hzero] using hreading
        · simpa [hzero] using hcome
        · rw [List.length_append] at hlt
          omega
    have hlt := hround.1
    rw [hreading.written, hreading.requested] at hlt
    obtain rfl : rows = [] := hdone.resolve_right (by omega)
    rw [List.nil_append]
    cases blocks with
    | nil =>
      obtain ⟨s', hdelivers, hstate, hat'⟩ := hsingles.ended s hat
      have hcall := hdelivers.call (F := F) hnone hsetup.source (.nil m) .processSingle
      rw [hstate] at hcall
      unfold pullLoop
      rw [if_pos hround, hcall]
      dsimp only
      rw [if_neg (by simp [exceptionCheck, hnone]), if_neg (by simp [herror]), hstate]
      dsimp only
      rcases validatePhysicalEofSampleCount_cases
        (m := m.record (.returned .processSingle true .endOfStream none)) hnone with
        ⟨haccepted, heq⟩ | ⟨hshort, heq⟩
      · rw [heq]
        refine .left s' _ hnone ?_ ?_ ?_ (fun _ => rfl) (.single rfl (by simp))
        · exact ⟨hsetup.pull, hsetup.plain, hsetup.source, hsetup.first, hsetup.info,
            hsetup.channels, hsetup.total⟩
        · simpa using (⟨hreading.channels, hreading.requested, hreading.written, hreading.emitted,
            hreading.le, hreading.rows, hreading.output⟩ :
            Reading width request before got m.context.endPull)
        · have hnothing : HoldsBack width m.context.endPull [] := by
            cases hback with
            | nothing hsamples => exact .nothing hsamples
            | block _ _ _ _ _ _ _ hpos => simp at hpos
          have hcome : ToCome At P width limit s' m.context.endPull ([] ++ rowsOf []) :=
            .intro [] [] hnothing hat' (by simp) (by simp) fun _ => ⟨rfl, rfl⟩
          simpa using hcome
      · rw [heq]
        refine .failed s' _ (by simp) (.inr ?_)
        have hends := eofAccepted_eq_false hshort
        rw [record_context, hsetup.first, hsetup.total, hreading.emitted] at hends
        simpa using hends
    | cons block blocks =>
      obtain ⟨s', hdelivers, hlive, hsound, hat'⟩ := hsingles.block block blocks s hat
      by_cases hchannels : block.channels = width
      swap
      · -- whatever happens next, the odd block is on record
        have hrecorded := hdelivers.call_records (F := F) hnone hsetup.source .processSingle
        exact .odd _ block (hblocks block List.mem_cons_self) hchannels
          (hrecorded.after (pullLoop_adds_call F J fuel (pullLoop_adds F J fuel) s hround))
      have hblock := hfits block (hblocks block List.mem_cons_self)
      rcases take_pull (J := J) hblock hnone hsetup.pull herror hchannels hrequest hreading hback
        with ⟨hmalloc, m', hrefused, hraised⟩ | ⟨c, htaken, hread, hrest, hfields⟩
      · have hpending := hdelivers.call_refused (F := F) hnone hsetup.source hsetup.plain hrefused
          hraised .processSingle
        unfold pullLoop
        rw [if_pos hround]
        generalize F.call J .processSingle _ _ m = single at hpending
        obtain ⟨exception, hexception⟩ := Option.ne_none_iff_exists'.mp hpending
        dsimp only
        rw [if_pos (by simp [exceptionCheck, hexception])]
        exact .failed _ _ hpending (.inl ⟨_, hmalloc⟩)
      have haccepts : Accepts J m [.pcm block] ((m.record (.writeCallback block)).withContext c) :=
        .cons _ _ _ _ _ htaken hnone (.nil _)
      have hcall := hdelivers.call (F := F) hnone hsetup.source haccepts .processSingle
      have hsetup' : c.setup = m.context.setup := by
        have hsame := handle_setup J (.write block) m []
        simp only [handle] at hsame
        simp only [Delivery.take] at htaken
        rw [htaken] at hsame
        exact hsame
      have herror' : c.sawError = false := (congrArg (·.1) hfields).trans herror
      have heof : c.pullEndOfStream = false :=
        (congrArg (·.2.2.2.2) hfields).trans hround.2
      unfold pullLoop
      rw [if_pos hround, hcall]
      dsimp only
      rw [if_neg (by simp [exceptionCheck, hnone]), if_neg (by simp [herror'])]
      have hlength : (got ++ block.rows.take (request - got.length)).length =
          got.length + min (request - got.length) block.rows.length := by
        rw [List.length_append, List.length_take]
      split
      · exact absurd ‹_› hlive
      · exact absurd ‹_› hsound
      rw [rowsOf_cons]
      have hadds : Adds (fun e => ∀ exception, e ≠ .raised exception) m
          (((m.record (.writeCallback block)).withContext c).record
            (.returned .processSingle true (F.getState s'.decoder) none)) :=
        ⟨[.writeCallback block, .returned .processSingle true (F.getState s'.decoder) none],
          by simp, by simp⟩
      refine PullLoop.of_block hadds ?_
      refine ih hnone herror' (hsetup.of_fields hsetup' hfields) hread hrest hat'
        (fun b hb => hblocks b (List.mem_cons_of_mem _ hb)) ?_ ?_ (fun h => ?_) ?_
      · rw [List.length_cons] at hlimit
        omega
      · rw [List.length_cons] at hfuel
        omega
      · rw [record_context, withContext_context, heof] at h
        cases h
      · rcases Nat.le_total block.rows.length (request - got.length) with hle | hle
        · exact .inl (List.drop_eq_nil_of_le hle)
        · right
          rw [hlength, Nat.min_eq_left hle]
          omega

end JFlac.Decode
