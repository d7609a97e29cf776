import JFlac.Decode.Blocks
import JFlac.Decode.Deliveries
import JFlac.Decode.Processed

/-!
# Audio in push mode

A callback-driven decode hands each block to the consumer as it arrives, cut to the requested
range. `Playing` describes an operation by the rows libFLAC has handed over so far: those inside
the range have reached the consumer. The write callback and the loops of an unchained decode are
each described once in these terms.
-/

namespace JFlac.Decode

open Machine Lib

variable {D : Type}

/-! ## What the consumer heard -/

/-- The PCM that the consumer took in a call, with its frame count. -/
def Event.chunk? : Event → Option (List Sample × ℕ)
  | .java (.onPcmInterleaved samples frames) .returned => some (samples, frames)
  | _ => none

/-- The record hands the rows to the consumer, in chunks of whole frames, none of them empty. -/
def HandsOver (events : List Event) (rows : List (List Sample)) : Prop :=
  ∃ pieces : List (List (List Sample)),
    events.filterMap Event.chunk? = pieces.map (fun piece => (piece.flatten, piece.length)) ∧
    (∀ piece ∈ pieces, piece ≠ [] ∧ ∃ width, HasWidth width piece) ∧ pieces.flatten = rows

theorem HandsOver.nil {events : List Event} (h : ∀ e ∈ events, e.chunk? = none) :
    HandsOver events [] :=
  ⟨[], by simpa [List.filterMap_eq_nil_iff] using h, by simp, rfl⟩

theorem HandsOver.append {events events' : List Event} {rows rows' : List (List Sample)}
    (h : HandsOver events rows) (h' : HandsOver events' rows') :
    HandsOver (events ++ events') (rows ++ rows') := by
  obtain ⟨pieces, hchunks, hpieces, hrows⟩ := h
  obtain ⟨pieces', hchunks', hpieces', hrows'⟩ := h'
  refine ⟨pieces ++ pieces', ?_, ?_, ?_⟩
  · rw [List.filterMap_append, hchunks, hchunks', List.map_append]
  · intro piece hpiece
    exact (List.mem_append.mp hpiece).elim (hpieces piece) (hpieces' piece)
  · rw [List.flatten_append, hrows, hrows']

/-- Events without PCM change nothing. -/
theorem HandsOver.quiet {events events' : List Event} {rows : List (List Sample)}
    (h : HandsOver events rows) (hquiet : ∀ e ∈ events', e.chunk? = none) :
    HandsOver (events ++ events') rows := by
  have hall := h.append (.nil hquiet)
  rwa [List.append_nil] at hall

/-- One call of `onPcmInterleaved` that was executed. -/
theorem HandsOver.chunk {frame : Frame} {frames : ℕ} (hpos : 0 < frames)
    (hle : frames ≤ frame.blocksize) :
    HandsOver [.java (.onPcmInterleaved (interleave frame frames) frames) .returned]
      (frame.rows.take frames) := by
  have hlength : (frame.rows.take frames).length = frames := by
    rw [List.length_take, Frame.length_rows, Nat.min_eq_left hle]
  refine ⟨[frame.rows.take frames], ?_, ?_, by simp⟩
  · simp [Event.chunk?, interleave_eq frame hle, hle]
  · intro piece hpiece
    rw [List.mem_singleton.mp hpiece]
    refine ⟨fun hempty => ?_, frame.channels, frame.rows_hasWidth.take frames⟩
    rw [hempty, List.length_nil] at hlength
    omega

theorem Event.chunk?_of_isPcm {e : Event} (h : e.isPcm = false) : e.chunk? = none := by
  cases e with
  | java call outcome =>
    cases call with
    | onPcmInterleaved samples frames => simp [Event.isPcm] at h
    | _ => rfl
  | _ => rfl

/-- The consumer received these rows, and no `onComplete`. -/
def Heard (events : List Event) (rows : List (List Sample)) : Prop :=
  HandsOver events rows ∧ ∀ e ∈ events, e.isComplete = false

/-- The consumer received these rows, and then one `onComplete`. -/
def Served (events : List Event) (rows : List (List Sample)) : Prop :=
  ∃ before, events = before ++ [.java .onComplete .returned] ∧ Heard before rows

theorem Heard.of_quiet {events : List Event}
    (h : ∀ e ∈ events, e.chunk? = none ∧ e.isComplete = false) : Heard events [] :=
  ⟨.nil fun e he => (h e he).1, fun e he => (h e he).2⟩

theorem Heard.of_internal {events : List Event} (h : ∀ e ∈ events, e.isInternal = true) :
    Heard events [] := by
  refine .of_quiet fun e he => ?_
  have hinternal := h e he
  refine ⟨Event.chunk?_of_isPcm (Event.isPcm_of_isInternal hinternal), ?_⟩
  cases e with
  | java call outcome =>
    cases call with
    | onComplete => simp [Event.isInternal] at hinternal
    | _ => rfl
  | _ => rfl

theorem Heard.append {events events' : List Event} {rows rows' : List (List Sample)}
    (h : Heard events rows) (h' : Heard events' rows') :
    Heard (events ++ events') (rows ++ rows') :=
  ⟨h.1.append h'.1, fun e he => (List.mem_append.mp he).elim (h.2 e) (h'.2 e)⟩

/-! ## Progress of an operation -/

/-- The part of the rows handed over by libFLAC that was asked for. -/
def DecodeContext.window (c : DecodeContext) (rows : List (List Sample)) : List (List Sample) :=
  if c.rangeLimited then rows.take c.maxFrames else rows

/-- The context with its progress fields set. -/
def DecodeContext.progress (c : DecodeContext) (emittedFrames : ℕ) (rangeComplete : Bool) :
    DecodeContext :=
  { c with emittedFrames := emittedFrames, rangeComplete := rangeComplete }

/-- Nothing but the progress of the operation differs. -/
def Advances (c c' : DecodeContext) : Prop :=
  ∃ emittedFrames rangeComplete, c' = c.progress emittedFrames rangeComplete

theorem Advances.refl (c : DecodeContext) : Advances c c := ⟨_, _, rfl⟩

theorem Advances.trans {c c' c'' : DecodeContext} (h : Advances c c') (h' : Advances c' c'') :
    Advances c c'' := by
  obtain ⟨emitted, complete, rfl⟩ := h
  obtain ⟨emitted', complete', rfl⟩ := h'
  exact ⟨emitted', complete', rfl⟩

theorem Advances.window {c c' : DecodeContext} (h : Advances c c') (rows : List (List Sample)) :
    c'.window rows = c.window rows := by
  obtain ⟨emitted, complete, rfl⟩ := h
  rfl

/-- An operation that began with the history `base` and was handed `rows` since. -/
structure Playing (base : List Event) (rows : List (List Sample)) (m : Machine) : Prop where
  unpending : m.pending = none
  error : m.context.sawError = false
  push : m.context.pullMode = false
  bound : m.context.maxFrames < 18446744073709551616
  heard : ∃ events, m.history = base ++ events ∧ HandsOver events (m.context.window rows) ∧
    ∀ e ∈ events, e.isComplete = false
  emitted : m.context.emittedFrames = (m.context.window rows).length
  complete : m.context.rangeComplete =
    (m.context.rangeLimited && decide (m.context.maxFrames ≤ rows.length))

namespace Playing

variable {base : List Event} {rows : List (List Sample)} {m : Machine}

/-- What happens without PCM is not heard. -/
theorem adds (h : Playing base rows m) {m' : Machine} (hcontext : m'.context = m.context)
    (hnone : m'.pending = none)
    (hadds : Adds (fun e => e.chunk? = none ∧ e.isComplete = false) m m') :
    Playing base rows m' := by
  obtain ⟨extra, hhistory', hextra⟩ := hadds
  obtain ⟨events, hhistory, hstreams, hincomplete⟩ := h.heard
  refine ⟨hnone, by rw [hcontext]; exact h.error, by rw [hcontext]; exact h.push,
    by rw [hcontext]; exact h.bound, ⟨events ++ extra, ?_, ?_, ?_⟩,
    by rw [hcontext]; exact h.emitted, by rw [hcontext]; exact h.complete⟩
  · rw [hhistory', hhistory, List.append_assoc]
  · rw [hcontext]
    exact hstreams.quiet fun e he => (hextra e he).1
  · intro e he
    exact (List.mem_append.mp he).elim (hincomplete e) fun he => (hextra e he).2

/-- A complete range ignores what follows. -/
theorem past (h : Playing base rows m) (hcomplete : m.context.rangeComplete = true)
    (more : List (List Sample)) : Playing base (rows ++ more) m := by
  have hreached := h.complete
  rw [hcomplete, eq_comm, Bool.and_eq_true, decide_eq_true_iff] at hreached
  have hwindow : m.context.window (rows ++ more) = m.context.window rows := by
    unfold DecodeContext.window
    rw [if_pos hreached.1, if_pos hreached.1, List.take_append_of_le_length hreached.2]
  refine ⟨h.unpending, h.error, h.push, h.bound, by rw [hwindow]; exact h.heard,
    by rw [hwindow]; exact h.emitted, ?_⟩
  have hmore : m.context.maxFrames ≤ (rows ++ more).length := by
    rw [List.length_append]
    omega
  rw [hcomplete, hreached.1, decide_eq_true hmore]
  rfl

/-- A window that was cut off is complete. -/
theorem complete_iff (h : Playing base rows m) (hlimited : m.context.rangeLimited = true) :
    m.context.rangeComplete = true ↔ m.context.maxFrames ≤ rows.length := by
  rw [h.complete, hlimited, Bool.true_and, decide_eq_true_iff]

theorem unlimited (h : Playing base rows m) (hlimited : m.context.rangeLimited = false) :
    m.context.rangeComplete = false := by
  rw [h.complete, hlimited, Bool.false_and]

end Playing

/-- An operation of which the consumer has heard nothing yet. -/
theorem Playing.begin {base events : List Event} {m : Machine} (hnone : m.pending = none)
    (hhistory : m.history = base ++ events) (hheard : Heard events [])
    (herror : m.context.sawError = false) (hpush : m.context.pullMode = false)
    (hbound : m.context.maxFrames < 18446744073709551616) (hemitted : m.context.emittedFrames = 0)
    (hcomplete : m.context.rangeComplete =
      (m.context.rangeLimited && decide (m.context.maxFrames = 0))) : Playing base [] m := by
  have hwindow : m.context.window [] = [] := by
    unfold DecodeContext.window
    split
    · exact List.take_nil
    · rfl
  refine ⟨hnone, herror, hpush, hbound, ⟨events, hhistory, ?_, hheard.2⟩, ?_, ?_⟩
  · rw [hwindow]
    exact hheard.1
  · rw [hwindow, hemitted]
    rfl
  · rw [hcomplete]
    simp

/-! ## The write callback -/

/-- In a quiet JVM the consumer takes the frames of a block. -/
theorem Jvm.Quiet.forwardPcm {J : Jvm} (hquiet : J.Quiet) {frame : Frame} (hfits : frame.Fits)
    {frames : ℕ} (hpos : 0 < frames) (hle : frames ≤ frame.blocksize) {m : Machine}
    (hnone : m.pending = none) :
    Decode.forwardPcm J frame frames m =
      (.cont,
        { context := m.context.emit frames
          pending := none
          history := m.history ++ forwardEvents frame frames }) := by
  have hchannels := hfits.channels
  have hsize : frame.channels * frames ≤ intMax :=
    Nat.le_trans (Nat.mul_le_mul_left _ hle) hfits.size
  unfold Decode.forwardPcm
  dsimp only
  rw [if_neg (by omega), hquiet.callJava _ hnone, if_neg (by simp [exceptionCheck, hnone]),
    hquiet.malloc, if_neg (by simp), hquiet.callJava _ (by simpa using hnone),
    if_neg (by simp [exceptionCheck, hnone])]
  simp [Machine.record, Machine.withContext, forwardEvents, hnone]

/-- How much of a block the range still takes. -/
theorem Playing.outputFrames {base : List Event} {rows : List (List Sample)} {m : Machine}
    (h : Playing base rows m) (frames : ℕ) :
    (m.context.outputFrames frames = none ∧ m.context.rangeLimited = true ∧
      m.context.maxFrames ≤ rows.length) ∨
    ∃ n, m.context.outputFrames frames = some n ∧ n ≤ frames ∧ (0 < frames → 0 < n) ∧
      ∀ block : List (List Sample), block.length = frames →
        m.context.window (rows ++ block) = m.context.window rows ++ block.take n ∧
        (m.context.rangeLimited = true →
          (m.context.maxFrames ≤ (rows ++ block).length ↔
            m.context.maxFrames ≤ m.context.emittedFrames + n)) := by
  have hemitted := h.emitted
  have hbound := h.bound
  unfold DecodeContext.outputFrames
  by_cases hlimited : m.context.rangeLimited = true
  swap
  · right
    rw [if_neg hlimited]
    refine ⟨frames, rfl, Nat.le_refl _, id, fun block hblock => ⟨?_, (absurd · hlimited)⟩⟩
    unfold DecodeContext.window
    rw [if_neg hlimited, if_neg hlimited, List.take_of_length_le (by omega)]
  rw [if_pos hlimited]
  have hwindow : ∀ rows, m.context.window rows = rows.take m.context.maxFrames := by
    intro rows
    unfold DecodeContext.window
    rw [if_pos hlimited]
  rw [hwindow, List.length_take] at hemitted
  have hremaining : sub64 m.context.maxFrames m.context.emittedFrames =
      m.context.maxFrames - rows.length := by
    rw [sub64_of_le (by omega) hbound, hemitted]
    omega
  rw [hremaining]
  dsimp only
  by_cases hdone : m.context.maxFrames - rows.length = 0
  · rw [if_pos hdone]
    exact .inl ⟨rfl, hlimited, by omega⟩
  · right
    rw [if_neg hdone]
    refine ⟨_, rfl, Nat.min_le_right _ _, by omega, fun block hblock => ⟨?_, fun _ => ?_⟩⟩
    · rw [hwindow, hwindow, List.take_append, ← hblock, ← List.take_eq_take_min]
    · rw [List.length_append, hemitted, hblock]
      omega

/-- The consumer takes what the range leaves of a block. -/
theorem Playing.take {J : Jvm} (hquiet : J.Quiet) {base : List Event} {rows : List (List Sample)}
    {m : Machine} (h : Playing base rows m) {frame : Frame} (hfits : frame.Fits) :
    ∃ m', (Delivery.pcm frame).take J m = (.cont, m') ∧ Playing base (rows ++ frame.rows) m' ∧
      Advances m.context m'.context := by
  have hrecorded : Playing base rows (m.record (.writeCallback frame)) :=
    h.adds rfl h.unpending (.single rfl ⟨rfl, rfl⟩)
  have hunfold : (Delivery.pcm frame).take J m =
      (m.context.outputFrames frame.blocksize).elim
        (.cont, (m.record (.writeCallback frame)).withContext m.context.completeRange)
        fun frames => forwardPcm J frame frames (m.record (.writeCallback frame)) := by
    have hcheck : ¬ (m.record (.writeCallback frame)).exceptionCheck = true := by
      simp [exceptionCheck, h.unpending]
    show decodeWriteCallback J frame (m.record (.writeCallback frame)) = _
    unfold decodeWriteCallback
    rw [if_neg hcheck, record_context, if_neg (by simp [h.error]), if_neg (by simp [h.push])]
    cases m.context.outputFrames frame.blocksize <;> rfl
  rw [hunfold]
  rcases h.outputFrames frame.blocksize with ⟨hnone, hlimited, hdone⟩ | ⟨n, hsome, hle, hpos, hrows⟩
  · rw [hnone]
    have hcomplete : m.context.rangeComplete = true := (h.complete_iff hlimited).mpr hdone
    have hsame : m.context.completeRange = m.context := by
      unfold DecodeContext.completeRange
      rw [← hcomplete]
    refine ⟨_, rfl, ?_, ?_⟩
    · rw [hsame]
      exact hrecorded.past hcomplete frame.rows
    · rw [hsame]
      exact .refl _
  · rw [hsome]
    have hpos := hpos hfits.blocksize
    obtain ⟨hwindow, hcount⟩ := hrows frame.rows frame.length_rows
    obtain ⟨events, hhistory, hstreams, hincomplete⟩ := hrecorded.heard
    have hemit : ∀ rows, (m.context.emit n).window rows = m.context.window rows := fun _ => rfl
    refine ⟨_, hquiet.forwardPcm hfits hpos hle hrecorded.unpending, ?_, _, _, rfl⟩
    refine ⟨rfl, h.error, h.push, h.bound, ⟨events ++ forwardEvents frame n, ?_, ?_, ?_⟩, ?_, ?_⟩
    · rw [hhistory, List.append_assoc]
    · have hfirst : HandsOver [.java (.newIntArray (frame.channels * n)) .returned] [] :=
        .nil (by simp [Event.chunk?])
      have hall := hstreams.append (hfirst.append (HandsOver.chunk hpos hle))
      show HandsOver _ ((m.context.emit n).window (rows ++ frame.rows))
      rw [hemit, hwindow]
      exact hall
    · intro e he
      rcases List.mem_append.mp he with he | he
      · exact hincomplete e he
      · simp only [forwardEvents, List.mem_cons, List.not_mem_nil, or_false] at he
        rcases he with rfl | rfl <;> rfl
    · show m.context.emittedFrames + n = ((m.context.emit n).window (rows ++ frame.rows)).length
      rw [hemit, hwindow, List.length_append, List.length_take, Frame.length_rows,
        Nat.min_eq_left hle, h.emitted]
    · show (m.context.rangeComplete ||
        (m.context.rangeLimited && decide (m.context.maxFrames ≤ m.context.emittedFrames + n))) =
          (m.context.rangeLimited && decide (m.context.maxFrames ≤ (rows ++ frame.rows).length))
      rw [h.complete]
      cases hlimited : m.context.rangeLimited with
      | false => rfl
      | true =>
        have hiff := hcount hlimited
        rw [Bool.true_and, Bool.true_and, Bool.true_and, decide_eq_decide.mpr hiff]
        by_cases hbefore : m.context.maxFrames ≤ rows.length
        · have hafter : m.context.maxFrames ≤ m.context.emittedFrames + n :=
            hiff.mp (by rw [List.length_append]; omega)
          rw [decide_eq_true hbefore, decide_eq_true hafter]
          rfl
        · rw [decide_eq_false hbefore, Bool.false_or]

/-- The consumer takes a list of blocks. -/
theorem Playing.accepts {J : Jvm} (hquiet : J.Quiet) {base : List Event}
    {rows : List (List Sample)} {m : Machine} (h : Playing base rows m) {blocks : List Frame}
    (hfits : ∀ b ∈ blocks, b.Fits) :
    ∃ m', Accepts J m (blocks.map .pcm) m' ∧ Playing base (rows ++ rowsOf blocks) m' ∧
      Advances m.context m'.context := by
  induction blocks generalizing rows m with
  | nil => exact ⟨m, .nil m, by rwa [rowsOf_nil, List.append_nil], .refl _⟩
  | cons block blocks ih =>
    rw [List.forall_mem_cons] at hfits
    obtain ⟨m₁, htake, hplaying, hadvances⟩ := h.take hquiet hfits.1
    obtain ⟨m₂, haccepts, hplaying', hadvances'⟩ := ih hplaying hfits.2
    refine ⟨m₂, .cons m m₁ m₂ _ _ htake hplaying.unpending haccepts, ?_,
      hadvances.trans hadvances'⟩
    rwa [rowsOf_cons, ← List.append_assoc]

/-- A libFLAC call that hands over blocks. -/
theorem Playing.call {F : LibFlac D} {J : Jvm} (hquiet : J.Quiet) {base : List Event}
    {rows : List (List Sample)} {m : Machine} (h : Playing base rows m) {source : Source}
    (hsource : m.context.source = source) {activity : Activity D} {calls : List TransportCall}
    (blocks : List Frame) (hfits : ∀ b ∈ blocks, b.Fits) {success : Bool} {s : Stream D}
    (hdelivers : Delivers J source activity calls (blocks.map .pcm) success s) (api : Api) :
    ∃ m', F.call J api activity calls m = (success, s, m') ∧
      Playing base (rows ++ rowsOf blocks) m' ∧ Advances m.context m'.context := by
  obtain ⟨m', haccepts, hplaying, hadvances⟩ := h.accepts hquiet hfits
  exact ⟨_, hdelivers.call h.unpending hsource haccepts api,
    hplaying.adds rfl hplaying.unpending (.single rfl ⟨rfl, rfl⟩), hadvances⟩

end JFlac.Decode
