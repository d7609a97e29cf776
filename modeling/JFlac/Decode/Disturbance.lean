import JFlac.Decode.Playing

/-!
# Links that go wrong

What a chained decode has told its consumer when Java code, allocations, the transport and libFLAC
may fail at any time. Until the first failure the record is `Told`: all PCM that libFLAC has handed
over was forwarded, and STREAMINFO once. From then on it is `Spoilt`: no PCM follows. `Offers` says
of a libFLAC call what it hands over as long as nothing fails, and `Offers.run` that the decode
either takes all of it or is `Disturbed`.
-/

namespace JFlac.Decode

open Machine Lib

variable {D : Type}

/-! ## The record -/

/-- The PCM in a call of `onPcmInterleaved`, whether the consumer returned from it or raised. -/
def Event.given : Event → List Sample
  | .java (.onPcmInterleaved samples _) _ => samples
  | _ => []

/-- All PCM that the consumer was given. -/
def givenPcm (events : List Event) : List Sample := events.flatMap Event.given

/-- After a failure nothing is handed to the consumer. -/
def StopsAtFailure (events : List Event) : Prop :=
  events.Pairwise fun earlier later => earlier.isFailure = true → later.isPcm = false

/-- Neither a failure nor a call on the consumer. -/
def Event.Silent (e : Event) : Prop :=
  e.isFailure = false ∧ e.isStreamInfo = false ∧ e.isPcm = false ∧ e.isComplete = false

/-- The record of a decode in which nothing has failed: `rows` were forwarded, and the public
STREAMINFO of the chain if a link has begun. -/
structure Told (first : StreamInfo) (begun : ℕ) (rows : List (List Sample)) (events : List Event) :
    Prop where
  harmless : ∀ e ∈ events, e.isFailure = false
  incomplete : ∀ e ∈ events, e.isComplete = false
  shown : events.filter Event.isStreamInfo =
    if begun = 0 then [] else [.java (.onStreamInfo first.chainShape) .returned]
  heard : HandsOver events rows
  given : givenPcm events = rows.flatten

/-- The record of a decode in which something has failed, when `limit` is the most that the consumer
may have been given. -/
structure Spoilt (limit : List (List Sample)) (events : List Event) : Prop where
  failure : ∃ e ∈ events, e.isFailure = true
  incomplete : ∀ e ∈ events, e.isComplete = false
  stops : StopsAtFailure events
  given : givenPcm events <+: limit.flatten

theorem givenPcm_append (events events' : List Event) :
    givenPcm (events ++ events') = givenPcm events ++ givenPcm events' := List.flatMap_append

theorem Event.given_of_isPcm {e : Event} (h : e.isPcm = false) : e.given = [] := by
  cases e with
  | java call outcome =>
    cases call with
    | onPcmInterleaved samples frames => cases h
    | _ => rfl
  | _ => rfl

theorem givenPcm_eq_nil {events : List Event} (h : ∀ e ∈ events, e.isPcm = false) :
    givenPcm events = [] :=
  List.flatMap_eq_nil_iff.mpr fun e he => Event.given_of_isPcm (h e he)

theorem StopsAtFailure.of_noPcm {events : List Event} (h : ∀ e ∈ events, e.isPcm = false) :
    StopsAtFailure events :=
  List.pairwise_of_forall_mem_list fun _ _ later hlater _ => h later hlater

theorem StopsAtFailure.of_harmless {events events' : List Event}
    (h : ∀ e ∈ events, e.isFailure = false) (hstops : StopsAtFailure events') :
    StopsAtFailure (events ++ events') := by
  have hnever : ∀ e ∈ events, ∀ later : Event, e.isFailure = true → later.isPcm = false := by
    intro e he later hfailure
    rw [h e he] at hfailure
    cases hfailure
  exact List.pairwise_append.mpr
    ⟨List.pairwise_of_forall_mem_list fun e he later _ => hnever e he later, hstops,
      fun e he later _ => hnever e he later⟩

theorem Spoilt.append {limit : List (List Sample)} {events extra : List Event}
    (h : Spoilt limit events) (hextra : ∀ e ∈ extra, e.isPcm = false ∧ e.isComplete = false) :
    Spoilt limit (events ++ extra) := by
  obtain ⟨e, he, hfailure⟩ := h.failure
  refine ⟨⟨e, List.mem_append_left _ he, hfailure⟩, fun e he => ?_, ?_, ?_⟩
  · exact (List.mem_append.mp he).elim (h.incomplete e) fun he => (hextra e he).2
  · have hstops : StopsAtFailure extra := .of_noPcm fun e he => (hextra e he).1
    exact List.pairwise_append.mpr
      ⟨h.stops, hstops, fun _ _ later hlater _ => (hextra later hlater).1⟩
  · rw [givenPcm_append, givenPcm_eq_nil fun e he => (hextra e he).1, List.append_nil]
    exact h.given

theorem Spoilt.adds {limit : List (List Sample)} {m m' : Machine} (h : Spoilt limit m.history)
    (hadds : Adds (fun e => e.isPcm = false ∧ e.isComplete = false) m m') :
    Spoilt limit m'.history := by
  obtain ⟨extra, hhistory, hextra⟩ := hadds
  rw [hhistory]
  exact h.append hextra

theorem Spoilt.mono {limit limit' : List (List Sample)} {events : List Event}
    (h : Spoilt limit events) (hlimit : limit <+: limit') : Spoilt limit' events := by
  obtain ⟨more, rfl⟩ := hlimit
  refine ⟨h.failure, h.incomplete, h.stops, h.given.trans ?_⟩
  rw [List.flatten_append]
  exact List.prefix_append _ _

namespace Told

variable {first : StreamInfo} {begun : ℕ} {rows limit : List (List Sample)}
  {events extra : List Event}

theorem silent (h : Told first begun rows events) (hextra : ∀ e ∈ extra, e.Silent) :
    Told first begun rows (events ++ extra) := by
  have hnone : extra.filter Event.isStreamInfo = [] :=
    List.filter_eq_nil_iff.mpr fun e he => by simp [(hextra e he).2.1]
  refine ⟨fun e he => ?_, fun e he => ?_, ?_, ?_, ?_⟩
  · exact (List.mem_append.mp he).elim (h.harmless e) fun he => (hextra e he).1
  · exact (List.mem_append.mp he).elim (h.incomplete e) fun he => (hextra e he).2.2.2
  · rw [List.filter_append, hnone, List.append_nil]
    exact h.shown
  · exact h.heard.quiet fun e he => Event.chunk?_of_isPcm (hextra e he).2.2.1
  · rw [givenPcm_append, givenPcm_eq_nil fun e he => (hextra e he).2.2.1, List.append_nil]
    exact h.given

/-- A block was forwarded. -/
theorem forwarded (h : Told first begun rows events) {frame : Frame} (hpos : 0 < frame.blocksize) :
    Told first begun (rows ++ frame.rows) (events ++ forwardEvents frame frame.blocksize) := by
  have hrows : frame.rows.take frame.blocksize = frame.rows :=
    List.take_of_length_le (Nat.le_of_eq frame.length_rows)
  have hfirst : HandsOver [.java (.newIntArray (frame.channels * frame.blocksize)) .returned] [] :=
    .nil (by simp [Event.chunk?])
  have hchunk := hfirst.append (HandsOver.chunk hpos (Nat.le_refl _))
  rw [hrows, List.nil_append] at hchunk
  refine ⟨fun e he => ?_, fun e he => ?_, ?_, h.heard.append hchunk, ?_⟩
  · refine (List.mem_append.mp he).elim (h.harmless e) fun he => ?_
    simp only [forwardEvents, List.mem_cons, List.not_mem_nil, or_false] at he
    rcases he with rfl | rfl <;> rfl
  · refine (List.mem_append.mp he).elim (h.incomplete e) fun he => ?_
    simp only [forwardEvents, List.mem_cons, List.not_mem_nil, or_false] at he
    rcases he with rfl | rfl <;> rfl
  · rw [List.filter_append, h.shown]
    exact List.append_nil _
  · have hblock : givenPcm (forwardEvents frame frame.blocksize) = frame.rows.flatten := by
      rw [← hrows, ← interleave_eq frame (Nat.le_refl _)]
      exact List.append_nil _
    rw [givenPcm_append, h.given, hblock, List.flatten_append]

/-- The first link begins. -/
theorem begins (h : Told first 0 rows events) :
    Told first 1 rows (events ++ [.java (.newStreamInfo first.chainShape) .returned,
      .java (.onStreamInfo first.chainShape) .returned]) := by
  refine ⟨fun e he => ?_, fun e he => ?_, ?_, h.heard.quiet (by simp [Event.chunk?]), ?_⟩
  · refine (List.mem_append.mp he).elim (h.harmless e) fun he => ?_
    simp only [List.mem_cons, List.not_mem_nil, or_false] at he
    rcases he with rfl | rfl <;> rfl
  · refine (List.mem_append.mp he).elim (h.incomplete e) fun he => ?_
    simp only [List.mem_cons, List.not_mem_nil, or_false] at he
    rcases he with rfl | rfl <;> rfl
  · rw [List.filter_append, h.shown]
    rfl
  · rw [givenPcm_append, h.given]
    exact List.append_nil _

/-- Another link begins. -/
theorem continues (h : Told first begun rows events) (hbegun : 0 < begun) :
    Told first (begun + 1) rows events := by
  refine ⟨h.harmless, h.incomplete, ?_, h.heard, h.given⟩
  rw [h.shown, if_neg (Nat.ne_of_gt hbegun), if_neg (Nat.succ_ne_zero begun)]

/-- Something fails. -/
theorem spoilt (h : Told first begun rows events) (hfailure : ∃ e ∈ extra, e.isFailure = true)
    (hincomplete : ∀ e ∈ extra, e.isComplete = false) (hstops : StopsAtFailure extra)
    (hgiven : rows.flatten ++ givenPcm extra <+: limit.flatten) :
    Spoilt limit (events ++ extra) := by
  obtain ⟨e, he, hfails⟩ := hfailure
  refine ⟨⟨e, List.mem_append_right _ he, hfails⟩, fun e he => ?_,
    .of_harmless h.harmless hstops, ?_⟩
  · exact (List.mem_append.mp he).elim (h.incomplete e) (hincomplete e)
  · rw [givenPcm_append, h.given]
    exact hgiven

/-- Something fails, and the consumer is given nothing more. -/
theorem broken (h : Told first begun rows events) (hfailure : ∃ e ∈ extra, e.isFailure = true)
    (hextra : ∀ e ∈ extra, e.isPcm = false ∧ e.isComplete = false) (hlimit : rows <+: limit) :
    Spoilt limit (events ++ extra) := by
  refine h.spoilt hfailure (fun e he => (hextra e he).2) (.of_noPcm fun e he => (hextra e he).1) ?_
  obtain ⟨more, rfl⟩ := hlimit
  rw [givenPcm_eq_nil fun e he => (hextra e he).1, List.append_nil, List.flatten_append]
  exact List.prefix_append _ _

end Told

/-! ## The machine -/

/-- The setup of a chained decode. -/
def chainSetup (source : Source) : Setup :=
  { source := source, consumer := true, suppressMetadata := false, decodeChainedOgg := true
    rangeLimited := false, maxFrames := 0, firstSample := 0, pullMode := false
    pullRequestedFrames := 0 }

/-- A chained decode in which nothing has gone wrong, after `begun` links have begun. -/
structure Flowing (source : Source) (first : StreamInfo) (begun : ℕ) (rows : List (List Sample))
    (m : Machine) : Prop where
  unpending : m.pending = none
  error : m.context.sawError = false
  md5 : m.context.chainedLinkMd5Failed = false
  setup : m.context.setup = chainSetup source
  count : m.context.chainedLinkCount = begun % 4294967296
  shape : 0 < begun → m.context.streamInfo = first
  emitted : m.context.emittedFrames = rows.length
  told : Told first begun rows m.history

/-- The same inside a link of `info` that began when `start` frames had been emitted. -/
structure FlowingIn (source : Source) (first info : StreamInfo) (begun start : ℕ)
    (rows : List (List Sample)) (m : Machine) : Prop extends Flowing source first begun rows m where
  total : m.context.currentLinkTotalSamples = info.totalSamples
  start : m.context.currentLinkStartEmittedFrames = start

/-- A decode in which something has gone wrong. -/
structure Disturbed (limit : List (List Sample)) (m : Machine) : Prop where
  failing : m.pending ≠ none ∨ m.context.sawError = true
  push : m.context.pullMode = false
  spoilt : Spoilt limit m.history

namespace Flowing

variable {source : Source} {first info : StreamInfo} {begun start : ℕ}
  {rows limit : List (List Sample)} {m m' : Machine}

theorem push (h : Flowing source first begun rows m) : m.context.pullMode = false :=
  congrArg Setup.pullMode h.setup

theorem chained (h : Flowing source first begun rows m) : m.context.decodeChainedOgg = true :=
  congrArg Setup.decodeChainedOgg h.setup

theorem unlimited (h : Flowing source first begun rows m) : m.context.rangeLimited = false :=
  congrArg Setup.rangeLimited h.setup

theorem source_eq (h : Flowing source first begun rows m) : m.context.source = source :=
  congrArg Setup.source h.setup

/-- An event that says nothing. -/
theorem record (h : Flowing source first begun rows m) {event : Event} (hevent : event.Silent) :
    Flowing source first begun rows (m.record event) :=
  ⟨h.unpending, h.error, h.md5, h.setup, h.count, h.shape, h.emitted,
    h.told.silent (by simpa using hevent)⟩

/-- The decode is disturbed by events without PCM. -/
theorem disturbed (h : Flowing source first begun rows m) {extra : List Event}
    (hhistory : m'.history = m.history ++ extra)
    (hextra : ∀ e ∈ extra, e.isPcm = false ∧ e.isComplete = false)
    (hfailure : ∃ e ∈ extra, e.isFailure = true)
    (hfailing : m'.pending ≠ none ∨ m'.context.sawError = true)
    (hpush : m'.context.pullMode = false) (hlimit : rows <+: limit) : Disturbed limit m' := by
  refine ⟨hfailing, hpush, ?_⟩
  rw [hhistory]
  exact h.told.broken hfailure hextra hlimit

/-- libFLAC reports an error. -/
theorem reportError (h : Flowing source first begun rows m) (status : ErrorStatus)
    (hlimit : rows <+: limit) :
    Disturbed limit (decodeErrorCallback status (m.record (.errorCallback status))) :=
  h.disturbed rfl (by simp [Event.isPcm, Event.isComplete]) (by simp [Event.isFailure])
    (.inr rfl) h.push hlimit

/-- The transport raises, unless it answers. -/
theorem transport (h : Flowing source first begun rows m) (hstep : TransportStep m m')
    (hlimit : rows <+: limit) : m' = m ∨ Disturbed limit m' := by
  cases hstep with
  | unchanged => exact .inl rfl
  | threw exception hnone =>
    exact .inr (h.disturbed rfl (by simp [Event.isPcm, Event.isComplete])
      (by simp [Event.isFailure]) (.inl (by simp)) h.push hlimit)
  | raised exception hnone =>
    exact .inr (h.disturbed rfl (by simp [Event.isPcm, Event.isComplete])
      (by simp [Event.isFailure]) (.inl (by simp [Machine.raise])) h.push hlimit)

end Flowing

/-- STREAMINFO reaches a consumer that listens, unless something fails. -/
theorem captureStreamInfo_shows (J : Jvm) (info publicInfo : StreamInfo) {m : Machine}
    (hnone : m.pending = none) (hconsumer : m.context.consumer = true)
    (hsuppress : m.context.suppressMetadata = false) :
    captureStreamInfo J info publicInfo m =
        { context := m.context.captured info
          pending := none
          history := m.history ++ [.java (.newStreamInfo publicInfo) .returned,
            .java (.onStreamInfo publicInfo) .returned] } ∨
      ∃ exception extra, captureStreamInfo J info publicInfo m =
        { context := m.context.captured info
          pending := some exception
          history := m.history ++ extra } ∧
        (∀ e ∈ extra, e.isPcm = false ∧ e.isComplete = false) ∧
        ∃ e ∈ extra, e.isFailure = true := by
  have hlistens : ¬ (!(m.context.captured info).consumer ||
      (m.context.captured info).suppressMetadata) = true := by
    show ¬ (!m.context.consumer || m.context.suppressMetadata) = true
    simp [hconsumer, hsuppress]
  unfold captureStreamInfo callJavaObject
  dsimp only
  rw [withContext_context, if_neg hlistens]
  rcases callJava_cases J (.newStreamInfo publicInfo)
    (m := m.withContext (m.context.captured info)) hnone with hnew | ⟨exception, hnew⟩
  · rw [hnew, if_pos (by simp [exceptionCheck, hnone])]
    rcases callJava_cases J (.onStreamInfo publicInfo)
      (m := (m.withContext (m.context.captured info)).record
        (.java (.newStreamInfo publicInfo) .returned)) hnone with hcall | ⟨exception, hcall⟩
    · rw [hcall]
      exact .inl (by simp [Machine.record, Machine.withContext, hnone])
    · rw [hcall]
      exact .inr ⟨exception, [.java (.newStreamInfo publicInfo) .returned,
        .java (.onStreamInfo publicInfo) (.threw exception)],
        by simp [Machine.record, Machine.withContext],
        by simp [Event.isPcm, Event.isComplete], by simp [Event.isFailure]⟩
  · rw [hnew, if_neg (by simp [exceptionCheck])]
    exact .inr ⟨exception, [.java (.newStreamInfo publicInfo) (.threw exception)],
      by simp [Machine.withContext], by simp [Event.isPcm, Event.isComplete],
      by simp [Event.isFailure]⟩

namespace Flowing

variable {source : Source} {first info : StreamInfo} {begun start : ℕ}
  {rows limit : List (List Sample)} {m m' : Machine}

/-- STREAMINFO of one of the first 2^32 links begins the link, or something goes wrong. -/
theorem takeStreamInfo (h : Flowing source first begun rows m) (J : Jvm)
    (hroom : begun < 4294967296) (hfirst : begun = 0 → info = first) (hlimit : rows <+: limit) :
    (info.sameShape first ∧ FlowingIn source first info (begun + 1) rows.length rows
        (decodeMetadataCallback J (.streamInfo info)
          (m.record (.metadataCallback (.streamInfo info))))) ∨
      Disturbed limit (decodeMetadataCallback J (.streamInfo info)
        (m.record (.metadataCallback (.streamInfo info)))) := by
  have hrecorded : Flowing source first begun rows
      (m.record (.metadataCallback (.streamInfo info))) := h.record ⟨rfl, rfl, rfl, rfl⟩
  generalize m.record (.metadataCallback (.streamInfo info)) = m₀ at hrecorded
  have hcount : m₀.context.chainedLinkCount = begun := by
    rw [hrecorded.count, Nat.mod_eq_of_lt hroom]
  unfold decodeMetadataCallback
  dsimp only
  rw [if_pos hrecorded.chained, hcount]
  by_cases hbegun : 0 < begun
  · rw [if_pos hbegun, hrecorded.shape hbegun]
    by_cases hshape : info.sameShape first
    · rw [if_pos hshape]
      refine .inl ⟨hshape, ⟨hrecorded.unpending, hrecorded.error, hrecorded.md5, hrecorded.setup,
        ?_, fun _ => hrecorded.shape hbegun, hrecorded.emitted, hrecorded.told.continues hbegun⟩,
        rfl, hrecorded.emitted⟩
      show add32 begun 1 = (begun + 1) % 4294967296
      unfold add32
      rfl
    · rw [if_neg hshape]
      exact .inr (hrecorded.disturbed (throwDecode_history _ _)
        (by simp [Event.isPcm, Event.isComplete]) (by simp [Event.isFailure]) (.inl (by simp))
        hrecorded.push hlimit)
  · obtain rfl : begun = 0 := Nat.eq_zero_of_not_pos hbegun
    obtain rfl : info = first := hfirst rfl
    rw [if_neg hbegun]
    rcases captureStreamInfo_shows J info info.chainShape
      (m := m₀.withContext (m₀.context.beginLink info 1)) hrecorded.unpending
      (congrArg Setup.consumer hrecorded.setup) (congrArg Setup.suppressMetadata hrecorded.setup)
      with heq | ⟨exception, extra, heq, hextra, hfailure⟩
    · rw [heq]
      exact .inl ⟨⟨rfl, rfl, rfl⟩, ⟨rfl, hrecorded.error, hrecorded.md5, hrecorded.setup, rfl,
        fun _ => rfl, hrecorded.emitted, hrecorded.told.begins⟩, rfl, hrecorded.emitted⟩
    · rw [heq]
      exact .inr (hrecorded.disturbed rfl hextra hfailure (.inl (by simp)) hrecorded.push hlimit)

end Flowing

namespace FlowingIn

variable {source : Source} {first info : StreamInfo} {begun start : ℕ}
  {rows limit : List (List Sample)} {m : Machine}

theorem record (h : FlowingIn source first info begun start rows m) {event : Event}
    (hevent : event.Silent) : FlowingIn source first info begun start rows (m.record event) :=
  ⟨h.toFlowing.record hevent, h.total, h.start⟩

/-- A block is forwarded, or something goes wrong. -/
theorem takePcm (h : FlowingIn source first info begun start rows m) (J : Jvm) (frame : Frame)
    (hlimit : rows ++ frame.rows <+: limit) :
    (∃ m', (Delivery.pcm frame).take J m = (.cont, m') ∧
        FlowingIn source first info begun start (rows ++ frame.rows) m') ∨
      Disturbed limit ((Delivery.pcm frame).take J m).2 := by
  have hbefore : rows <+: limit := (List.prefix_append _ _).trans hlimit
  have hrecorded : FlowingIn source first info begun start rows (m.record (.writeCallback frame)) :=
    h.record ⟨rfl, rfl, rfl, rfl⟩
  show (∃ m', decodeWriteCallback J frame (m.record (.writeCallback frame)) = (.cont, m') ∧ _) ∨
    Disturbed limit (decodeWriteCallback J frame (m.record (.writeCallback frame))).2
  generalize m.record (.writeCallback frame) = m₀ at hrecorded
  have hframes : m₀.context.outputFrames frame.blocksize = some frame.blocksize := by
    unfold DecodeContext.outputFrames
    rw [if_neg (by simp [hrecorded.unlimited])]
  have hstep := decodeWriteCallback_step J frame hrecorded.push
  generalize decodeWriteCallback J frame m₀ = answer at hstep ⊢
  obtain ⟨status, m'⟩ := answer
  dsimp only at hstep ⊢
  cases hstep with
  | refused hrefused =>
    rw [hrecorded.unpending, hrecorded.error] at hrefused
    simp at hrefused
  | outside _ _ hnone =>
    rw [hframes] at hnone
    cases hnone
  | failed exception events hnone herror hinternal hfailure =>
    refine .inr (hrecorded.disturbed rfl (fun e he => ?_) hfailure (.inl (by simp)) hrecorded.push
      hbefore)
    exact ⟨Event.isPcm_of_isInternal (hinternal e he),
      (Event.Ordinary.of_isInternal (hinternal e he)).2.1⟩
  | threw exception frames hnone herror hsome =>
    obtain rfl : frame.blocksize = frames := Option.some.inj (hframes.symm.trans hsome)
    -- the consumer was given this block
    refine .inr ⟨.inl (by simp), hrecorded.push, hrecorded.told.spoilt (by simp [Event.isFailure])
      (by simp [Event.isComplete]) ?_ ?_⟩
    · exact List.pairwise_pair.mpr fun hfailure => Bool.noConfusion hfailure
    · obtain ⟨more, rfl⟩ := hlimit
      have hrows : frame.rows.take frame.blocksize = frame.rows :=
        List.take_of_length_le (Nat.le_of_eq frame.length_rows)
      have hblock : givenPcm [.java (.newIntArray (frame.channels * frame.blocksize)) .returned,
          .java (.onPcmInterleaved (interleave frame frame.blocksize) frame.blocksize)
            (.threw exception)] = frame.rows.flatten := by
        rw [← hrows, ← interleave_eq frame (Nat.le_refl _)]
        exact List.append_nil _
      rw [hblock, List.flatten_append, List.flatten_append]
      exact List.prefix_append _ _
  | forwarded frames hnone herror hsome hchannels hpos =>
    obtain rfl : frame.blocksize = frames := Option.some.inj (hframes.symm.trans hsome)
    refine .inl ⟨_, rfl, ⟨rfl, hrecorded.error, hrecorded.md5, hrecorded.setup, hrecorded.count,
      hrecorded.shape, ?_, hrecorded.told.forwarded hpos⟩, hrecorded.total, hrecorded.start⟩
    show m₀.context.emittedFrames + frame.blocksize = (rows ++ frame.rows).length
    rw [hrecorded.emitted, List.length_append, frame.length_rows]

end FlowingIn

/-! ## After the first failure -/

theorem StreamInfoCalls.pending_of_ne {info : StreamInfo} {before after : Option Throwable}
    {events : List Event} (h : StreamInfoCalls info before events after) (hbefore : before ≠ none) :
    after ≠ none := by
  obtain ⟨exception, hexception⟩ := Option.ne_none_iff_exists'.mp hbefore
  rw [h.pending hexception]
  simp

/-- Another error report changes nothing. -/
theorem Disturbed.reportError {limit : List (List Sample)} {m : Machine} (h : Disturbed limit m)
    (status : ErrorStatus) :
    Disturbed limit (decodeErrorCallback status (m.record (.errorCallback status))) :=
  ⟨.inr rfl, h.push, h.spoilt.append (by simp [Event.isPcm, Event.isComplete])⟩

/-- No callback repairs the decode, and none of them hands PCM to the consumer. -/
theorem Disturbed.handle {limit : List (List Sample)} {m : Machine} (h : Disturbed limit m)
    (J : Jvm) (callback : Callback) (calls : List TransportCall) :
    Disturbed limit (handle J callback (m, calls)).2.1 := by
  have hpush : (Decode.handle J callback (m, calls)).2.1.context.pullMode = false :=
    (congrArg Setup.pullMode (handle_setup J callback m calls)).trans h.push
  cases callback with
  | error status => exact h.reportError status
  | transport callback =>
    have hstep := handleTransport_step J callback m calls
    revert hpush
    show (handleTransport J callback m calls).2.1.context.pullMode = false →
      Disturbed limit (handleTransport J callback m calls).2.1
    generalize (handleTransport J callback m calls).2.1 = m' at hstep
    intro hpush
    cases hstep with
    | unchanged => exact h
    | threw exception hnone =>
      exact ⟨.inl (by simp), hpush, h.spoilt.append (by simp [Event.isPcm, Event.isComplete])⟩
    | raised exception hnone =>
      exact ⟨.inl (by simp [Machine.raise]), hpush,
        h.spoilt.append (by simp [Event.isPcm, Event.isComplete])⟩
  | write frame =>
    have hrecorded : Spoilt limit (m.record (.writeCallback frame)).history :=
      h.spoilt.append (by simp [Event.isPcm, Event.isComplete])
    have hstep := decodeWriteCallback_step J frame (m := m.record (.writeCallback frame)) h.push
    revert hpush
    show (decodeWriteCallback J frame (m.record (.writeCallback frame))).2.context.pullMode =
      false → Disturbed limit (decodeWriteCallback J frame (m.record (.writeCallback frame))).2
    generalize decodeWriteCallback J frame (m.record (.writeCallback frame)) = answer at hstep
    obtain ⟨status, m'⟩ := answer
    intro hpush
    have hsound : m.pending = none → m.context.sawError = false → False := by
      intro hnone herror
      rcases h.failing with hpending | hsaw
      · exact hpending hnone
      · exact absurd (herror.symm.trans hsaw) (by simp)
    cases hstep with
    | refused => exact ⟨h.failing, hpush, hrecorded⟩
    | outside hnone herror => exact (hsound hnone herror).elim
    | failed _ _ hnone herror => exact (hsound hnone herror).elim
    | threw _ _ hnone herror => exact (hsound hnone herror).elim
    | forwarded _ hnone herror => exact (hsound hnone herror).elim
  | metadata block =>
    have hrecorded : Spoilt limit (m.record (.metadataCallback block)).history :=
      h.spoilt.append (by simp [Event.isPcm, Event.isComplete])
    have hstep := decodeMetadataCallback_step J block (m.record (.metadataCallback block))
    revert hpush
    show (decodeMetadataCallback J block (m.record (.metadataCallback block))).context.pullMode =
      false → Disturbed limit (decodeMetadataCallback J block (m.record (.metadataCallback block)))
    generalize decodeMetadataCallback J block (m.record (.metadataCallback block)) = m' at hstep
    intro hpush
    -- STREAMINFO may still be shown after an error report, but no PCM
    have hcalls : ∀ {info events after}, StreamInfoCalls info m.pending events after →
        (after ≠ none ∨ m.context.sawError = true) ∧
          Spoilt limit ((m.record (.metadataCallback block)).history ++ events) := by
      intro info events after hcalls
      refine ⟨h.failing.imp_left hcalls.pending_of_ne, hrecorded.append fun e he => ?_⟩
      exact ⟨(hcalls.ordinary e he).2, (hcalls.ordinary e he).1.2.1⟩
    cases hstep with
    | ignored => exact ⟨h.failing, hpush, hrecorded⟩
    | laterLink => exact ⟨h.failing, hpush, hrecorded⟩
    | mismatch =>
      exact ⟨.inl (by simp), hpush, hrecorded.append (by simp [Event.isPcm, Event.isComplete])⟩
    | firstLink info events after _ _ h => exact ⟨(hcalls h).1, hpush, (hcalls h).2⟩
    | stored info events after _ h => exact ⟨(hcalls h).1, hpush, (hcalls h).2⟩

/-! ## libFLAC calls that may fail -/

/-- As long as nothing fails, the call makes these deliveries and then returns true. Where an error
is reported, an exception is raised or libFLAC gives up, nothing is known of the rest. -/
inductive Offers (J : Jvm) (source : Source) :
    Activity D → List TransportCall → List Delivery → Stream D → Prop
  | done (d : D) (calls : List TransportCall) :
      Offers J source (.done (true, d)) calls [] ⟨d, calls⟩
  | gaveUp (d : D) (calls : List TransportCall) (deliveries : List Delivery) (s : Stream D) :
      Offers J source (.done (false, d)) calls deliveries s
  | transport (callback : TransportCallback) (next : TransportReply callback → Activity D)
      (calls : List TransportCall) (deliveries : List Delivery) (s : Stream D)
      (hnext : ∀ (m m' : Machine) reply calls', m.pending = none → m.context.source = source →
        handleTransport J callback m calls = (reply, m', calls') → m'.pending = none →
        Offers J source (next reply) calls' deliveries s) :
      Offers J source (.call (.transport callback) next) calls deliveries s
  | error (status : ErrorStatus) (next : Unit → Activity D) (calls : List TransportCall)
      (deliveries : List Delivery) (s : Stream D) :
      Offers J source (.call (.error status) next) calls deliveries s
  | pcm (frame : Frame) (next : WriteStatus → Activity D) (calls : List TransportCall)
      (deliveries : List Delivery) (s : Stream D)
      (hnext : Offers J source (next .cont) calls deliveries s) :
      Offers J source (.call (.write frame) next) calls (.pcm frame :: deliveries) s
  | metadata (block : Metadata) (next : Unit → Activity D) (calls : List TransportCall)
      (deliveries : List Delivery) (s : Stream D)
      (hnext : Offers J source (next ()) calls deliveries s) :
      Offers J source (.call (.metadata block) next) calls (.metadata block :: deliveries) s

/-- A call that makes its deliveries whatever happens offers them. -/
theorem Delivers.offers {J : Jvm} {source : Source} {activity : Activity D}
    {calls : List TransportCall} {deliveries : List Delivery} {s : Stream D}
    (h : Delivers J source activity calls deliveries true s) :
    Offers J source activity calls deliveries s := by
  generalize hsuccess : true = success at h
  induction h with
  | done success d calls =>
    subst hsuccess
    exact .done d calls
  | transport callback reply next calls calls' deliveries success s hreply _ ih =>
    refine .transport callback next calls deliveries s ?_
    intro m m' reply' calls'' hnone hsource hcall _
    cases (hreply m hnone hsource).symm.trans hcall
    exact ih hsuccess
  | pcm frame next calls deliveries success s _ ih => exact .pcm _ _ _ _ _ (ih hsuccess)
  | metadata block next calls deliveries success s _ ih => exact .metadata _ _ _ _ _ (ih hsuccess)
  | error status next calls deliveries success s _ _ => exact .error _ _ _ _ _

/-- The deliveries still to come when the machine is in a state of `P`, unless it is in one of
`Q`. -/
structure Follows (J : Jvm) (source : Source) (P : List Delivery → Machine → Prop)
    (Q : Machine → Prop) : Prop where
  ready : ∀ {deliveries m}, P deliveries m → m.pending = none ∧ m.context.source = source
  take : ∀ {delivery deliveries m}, P (delivery :: deliveries) m →
    (∃ m', delivery.take J m = (.cont, m') ∧ P deliveries m') ∨ Q (delivery.take J m).2
  error : ∀ {deliveries m}, P deliveries m → ∀ status,
    Q (decodeErrorCallback status (m.record (.errorCallback status)))
  transport : ∀ {deliveries m m'}, P deliveries m → TransportStep m m' → m' = m ∨ Q m'
  stays : ∀ {m}, Q m → ∀ callback calls, Q (handle J callback (m, calls)).2.1

/-- A call either makes all its deliveries, or gives up among them, or something fails. -/
theorem Offers.run {J : Jvm} {source : Source} {activity : Activity D}
    {calls : List TransportCall} {deliveries : List Delivery} {s : Stream D}
    (h : Offers J source activity calls deliveries s) {P : List Delivery → Machine → Prop}
    {Q : Machine → Prop} (hfollows : Follows J source P Q) {m : Machine} (hm : P deliveries m) :
    (∃ m', activity.run (handle J) (m, calls) = ((true, s.decoder), m', s.transportCalls) ∧
        P [] m') ∨
      ((activity.run (handle J) (m, calls)).1.1 = false ∧
        ∃ rest, P rest (activity.run (handle J) (m, calls)).2.1) ∨
      Q (activity.run (handle J) (m, calls)).2.1 := by
  have hstays : ∀ (activity : Activity D) (m : Machine) (calls : List TransportCall), Q m →
      Q (activity.run (handle J) (m, calls)).2.1 := fun activity m calls hq =>
    Lib.Calls.run_invariant (P := fun s : Machine × List TransportCall => Q s.1)
      (fun callback s hs => hfollows.stays hs callback s.2) activity hq
  induction h generalizing m with
  | done d calls => exact .inl ⟨m, rfl, hm⟩
  | gaveUp d calls deliveries s => exact .inr (.inl ⟨rfl, deliveries, hm⟩)
  | error status next calls deliveries s =>
    rw [Lib.Calls.run_call]
    exact .inr (.inr (hstays _ _ _ (hfollows.error hm status)))
  | transport callback next calls deliveries s _ ih =>
    obtain ⟨hnone, hsource⟩ := hfollows.ready hm
    have hstep := handleTransport_step J callback m calls
    generalize hcall : handleTransport J callback m calls = answer at hstep
    obtain ⟨reply, m', calls'⟩ := answer
    have hhandle : handle J (.transport callback) (m, calls) = (reply, m', calls') := hcall
    rw [Lib.Calls.run_call, hhandle]
    rcases hfollows.transport hm hstep with rfl | hq
    · exact ih m' m' reply calls' hnone hsource hcall hnone hm
    · exact .inr (.inr (hstays _ _ _ hq))
  | pcm frame next calls deliveries s _ ih =>
    rcases hfollows.take hm with ⟨m', htake, hm'⟩ | hq
    · have hhandle : handle J (.write frame) (m, calls) = (.cont, m', calls) := by
        simp only [Delivery.take] at htake
        simp only [handle, htake]
      rw [Lib.Calls.run_call, hhandle]
      exact ih hm'
    · rw [Lib.Calls.run_call]
      exact .inr (.inr (hstays _ _ _ hq))
  | metadata block next calls deliveries s _ ih =>
    rcases hfollows.take hm with ⟨m', htake, hm'⟩ | hq
    · have hhandle : handle J (.metadata block) (m, calls) = ((), m', calls) := by
        simp only [Delivery.take, Prod.mk.injEq, true_and] at htake
        simp only [handle, htake]
      rw [Lib.Calls.run_call, hhandle]
      exact ih hm'
    · rw [Lib.Calls.run_call]
      exact .inr (.inr (hstays _ _ _ hq))

end JFlac.Decode
