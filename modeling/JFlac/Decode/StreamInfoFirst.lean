import JFlac.Decode.Corruption
import JFlac.Decode.Setup

/-!
# STREAMINFO comes once and first

What a one-shot decode owes its consumer: `onStreamInfo` once and before any PCM, the first
STREAMINFO kept for the later checks, and silence once a consumer method has raised. The metadata
callback guards a repeated STREAMINFO only inside a chain, by a counter of 32 bits, and a chain that
changes its shape raises whatever is pending. So the duties are kept in every run whose STREAMINFO
callbacks are `Orderly`, and `repeatedStreamInfo` is a stream that breaks them.
-/

namespace JFlac.Decode

open Machine

variable {D : Type}

/-! ## What the record says -/

/-- The STREAMINFO a metadata callback brings. -/
def Event.received? : Event → Option StreamInfo
  | .metadataCallback (.streamInfo info) => some info
  | _ => none

/-- The first STREAMINFO libFLAC handed over. -/
def firstStreamInfo? (events : List Event) : Option StreamInfo :=
  events.findSome? Event.received?

/-- A call on the consumer. -/
def Event.isConsumer : Event → Bool
  | .java (.onStreamInfo _) _ | .java (.onPcmInterleaved _ _) _ | .java .onComplete _ => true
  | _ => false

/-- The exception a consumer method has raised. -/
def Event.consumerThrew? : Event → Option Throwable
  | .java (.onStreamInfo _) (.threw exception) => some exception
  | .java (.onPcmInterleaved _ _) (.threw exception) => some exception
  | .java .onComplete (.threw exception) => some exception
  | _ => none

/-- An exception came from anywhere. -/
def Event.raises : Event → Bool
  | .raised _ | .reported _ | .transportThrew _ | .java _ (.threw _) => true
  | _ => false

/-- The event neither reaches the consumer nor raises. -/
def Event.Passive (e : Event) : Prop := e.isConsumer = false ∧ e.raises = false

/-- Once a consumer method has raised, no consumer method is called and nothing else is raised. -/
def StopsAtException (events : List Event) : Prop :=
  events.Pairwise fun earlier later => earlier.consumerThrew? ≠ none → later.Passive

/-- What a decode owes its consumer about STREAMINFO and about the consumer's exceptions. -/
structure StreamInfoFirst (m : Machine) : Prop where
  once : m.history.countP Event.isStreamInfo ≤ 1
  first : m.history.Pairwise fun earlier later =>
    earlier.isPcm = true → later.isStreamInfo = false
  kept : ∀ info, firstStreamInfo? m.history = some info →
    m.context.sawStreamInfo = true ∧ m.context.streamInfo = info ∧
      m.context.streamTotalSamples = info.totalSamples
  stops : StopsAtException m.history
  pending : ∀ e ∈ m.history, ∀ exception, e.consumerThrew? = some exception →
    m.pending = some exception

/-- The number of STREAMINFO blocks libFLAC handed over. -/
def streamInfoCount (events : List Event) : ℕ := events.countP fun e => e.received?.isSome

/-- What must have happened before libFLAC hands over a STREAMINFO block: for the first one, no
PCM has been delivered; a later one begins a link of a chain, it is among the first 2^32, and it has
the shape of the first unless no consumer method has raised. -/
def OrderlyAt (chained : Bool) (before : List Event) (info : StreamInfo) : Prop :=
  match firstStreamInfo? before with
  | none => ∀ e ∈ before, e.isPcm = false
  | some first =>
    chained = true ∧ streamInfoCount before < 4294967296 ∧
      (info.sameShape first ∨ ∀ e ∈ before, e.consumerThrew? = none)

/-- Every STREAMINFO of a run comes in order. -/
def Orderly (chained : Bool) (events : List Event) : Prop :=
  ∀ before info after, events = before ++ .metadataCallback (.streamInfo info) :: after →
    OrderlyAt chained before info

theorem Orderly.left {chained : Bool} {events events' : List Event}
    (h : Orderly chained (events ++ events')) : Orderly chained events := by
  intro before info after hevents
  exact h before info (after ++ events') (by rw [hevents, List.append_assoc, List.cons_append])

/-! ## Steps that bring no STREAMINFO -/

/-- The fields of a context that STREAMINFO decides, with the modes they depend on. -/
def DecodeContext.streamInfoFields (c : DecodeContext) :
    Bool × ℕ × StreamInfo × Bool × ℕ × Bool :=
  (c.sawStreamInfo, c.streamTotalSamples, c.streamInfo, c.decodeChainedOgg, c.chainedLinkCount,
    c.pullMode)

/-- The machine goes on without STREAMINFO, and without a sound if an exception is pending. -/
structure Quiet (m m' : Machine) (events : List Event) : Prop where
  history : m'.history = m.history ++ events
  fields : m'.context.streamInfoFields = m.context.streamInfoFields
  pending : ∀ exception, m.pending = some exception → m'.pending = some exception
  noStreamInfo : ∀ e ∈ events, e.received? = none ∧ e.isStreamInfo = false
  passive : m.pending ≠ none → ∀ e ∈ events, e.Passive
  stops : StopsAtException events
  threw : ∀ e ∈ events, ∀ exception, e.consumerThrew? = some exception →
    m'.pending = some exception

theorem Event.consumerThrew?_eq_none {e : Event} (h : e.isConsumer = false) :
    e.consumerThrew? = none := by
  cases e with
  | java call outcome => cases call <;> first | rfl | cases h
  | _ => rfl

theorem Event.isStreamInfo_eq_false {e : Event} (h : e.isConsumer = false) :
    e.isStreamInfo = false := by
  cases e with
  | java call outcome => cases call <;> first | rfl | cases h
  | _ => rfl

theorem Event.isConsumer_of_isInternal {e : Event} (h : e.isInternal = true) :
    e.isConsumer = false := by
  cases e with
  | java call outcome => cases call <;> first | rfl | cases h
  | _ => rfl

theorem Event.received?_of_isInternal {e : Event} (h : e.isInternal = true) :
    e.received? = none := by
  cases e with
  | metadataCallback block => cases h
  | _ => rfl

theorem StopsAtException.of_quiet {events : List Event}
    (h : ∀ e ∈ events, e.consumerThrew? = none) : StopsAtException events :=
  List.pairwise_of_forall_mem_list fun e he _ _ hthrew => absurd (h e he) hthrew

namespace Quiet

variable {m m' : Machine} {events : List Event}

/-- A step that changes only other fields of the context. -/
theorem withContext {c : DecodeContext}
    (hfields : c.streamInfoFields = m.context.streamInfoFields) : Quiet m (m.withContext c) [] :=
  { history := by simp
    fields := hfields
    pending := fun _ h => h
    noStreamInfo := by simp
    passive := by simp
    stops := List.Pairwise.nil
    threw := by simp }

/-- An event that says nothing about STREAMINFO or the consumer. -/
theorem record {event : Event} (hreceived : event.received? = none) (hpassive : event.Passive) :
    Quiet m (m.record event) [event] :=
  { history := rfl
    fields := rfl
    pending := fun _ h => h
    noStreamInfo := by simp [hreceived, Event.isStreamInfo_eq_false hpassive.1]
    passive := by simp [hpassive]
    stops := List.pairwise_singleton _ _
    threw := by simp [Event.consumerThrew?_eq_none hpassive.1] }

/-- Internal events, where nothing was pending. -/
theorem of_internal (hhistory : m'.history = m.history ++ events)
    (hcontext : m'.context = m.context) (hnone : m.pending = none)
    (hinternal : ∀ e ∈ events, e.isInternal = true) : Quiet m m' events := by
  have hconsumer : ∀ e ∈ events, e.isConsumer = false := fun e he =>
    Event.isConsumer_of_isInternal (hinternal e he)
  refine ⟨hhistory, by rw [hcontext], fun _ h => ?_, fun e he => ?_, fun h => absurd hnone h,
    .of_quiet fun e he => Event.consumerThrew?_eq_none (hconsumer e he), fun e he _ h => ?_⟩
  · rw [hnone] at h
    cases h
  · exact ⟨Event.received?_of_isInternal (hinternal e he),
      Event.isStreamInfo_eq_false (hconsumer e he)⟩
  · rw [Event.consumerThrew?_eq_none (hconsumer e he)] at h
    cases h

end Quiet

/-- The write callback in push mode. -/
theorem WriteStep.quiet {frame : Frame} {m m' : Machine} {status : WriteStatus}
    (h : WriteStep frame m status m') : ∃ events, Quiet m m' events := by
  cases h with
  | refused => exact ⟨[], .withContext (c := m.context) rfl⟩
  | outside => exact ⟨[], .withContext rfl⟩
  | failed exception events hnone herror hinternal hfailure =>
    exact ⟨events, .of_internal rfl rfl hnone hinternal⟩
  | threw exception frames hnone herror hframes =>
    refine ⟨_, ⟨rfl, rfl, fun _ h => ?_, ?_, fun h => absurd hnone h, ?_, ?_⟩⟩
    · rw [hnone] at h
      cases h
    · simp [Event.received?, Event.isStreamInfo]
    · exact List.pairwise_pair.mpr fun h => absurd rfl h
    · simp [Event.consumerThrew?]
  | forwarded frames hnone herror hframes hchannels hpos =>
    refine ⟨_, ⟨rfl, rfl, fun _ h => ?_, ?_, fun h => absurd hnone h, .of_quiet ?_, ?_⟩⟩
    · rw [hnone] at h
      cases h
    · simp [forwardEvents, Event.received?, Event.isStreamInfo]
    · simp [forwardEvents, Event.consumerThrew?]
    · simp [forwardEvents, Event.consumerThrew?]

theorem TransportStep.quiet {m m' : Machine} (h : TransportStep m m') :
    ∃ events, Quiet m m' events := by
  cases h with
  | unchanged => exact ⟨[], .withContext (c := m.context) rfl⟩
  | threw exception hnone =>
    exact ⟨[_], .of_internal rfl rfl hnone (by simp [Event.isInternal])⟩
  | raised exception hnone =>
    exact ⟨[_], .of_internal rfl rfl hnone (by simp [Event.isInternal])⟩

/-! ## The books of a decode -/

/-- The duties, with what the context knows of the STREAMINFO callbacks so far. -/
structure Accounted (chained : Bool) (m : Machine) : Prop extends StreamInfoFirst m where
  unstarted : firstStreamInfo? m.history = none →
    m.context.chainedLinkCount = 0 ∧ ∀ e ∈ m.history, e.isStreamInfo = false
  started : chained = true → firstStreamInfo? m.history ≠ none →
    streamInfoCount m.history < 4294967296 →
      0 < m.context.chainedLinkCount ∧ m.context.chainedLinkCount ≤ streamInfoCount m.history

/-- The invariant of a one-shot decode: as long as STREAMINFO comes in order, its duties are
kept. -/
structure Dutiful (chained : Bool) (m : Machine) : Prop where
  push : m.context.pullMode = false
  mode : m.context.decodeChainedOgg = chained
  accounted : Orderly chained m.history → Accounted chained m

theorem firstStreamInfo?_append (events events' : List Event) :
    firstStreamInfo? (events ++ events') =
      (firstStreamInfo? events).or (firstStreamInfo? events') := by
  simp [firstStreamInfo?, List.findSome?_append]

theorem firstStreamInfo?_eq_none {events : List Event} :
    firstStreamInfo? events = none ↔ ∀ e ∈ events, e.received? = none := by
  simp [firstStreamInfo?, List.findSome?_eq_none_iff]

theorem streamInfoCount_append (events events' : List Event) :
    streamInfoCount (events ++ events') = streamInfoCount events + streamInfoCount events' :=
  List.countP_append

theorem streamInfoCount_eq_zero {events : List Event} (h : ∀ e ∈ events, e.received? = none) :
    streamInfoCount events = 0 :=
  List.countP_eq_zero.mpr fun e he => by simp [h e he]

theorem countP_isStreamInfo {events : List Event} (h : ∀ e ∈ events, e.isStreamInfo = false) :
    events.countP Event.isStreamInfo = 0 :=
  List.countP_eq_zero.mpr fun e he => by simp [h e he]

section Steps

variable {chained : Bool} {m m' : Machine} {events : List Event}

/-- A consumer's exception is still pending, so whatever is silent while one is pending may
follow. -/
theorem StreamInfoFirst.stops_append (h : StreamInfoFirst m) (hstops : StopsAtException events)
    (hpassive : m.pending ≠ none → ∀ e ∈ events, e.Passive) :
    StopsAtException (m.history ++ events) := by
  refine List.pairwise_append.mpr ⟨h.stops, hstops, fun earlier hearlier later hlater hthrew => ?_⟩
  obtain ⟨exception, hexception⟩ := Option.ne_none_iff_exists'.mp hthrew
  have hpending := h.pending earlier hearlier exception hexception
  exact hpassive (by simp [hpending]) later hlater

theorem StreamInfoFirst.pending_append (h : StreamInfoFirst m)
    (hkept : ∀ exception, m.pending = some exception → m'.pending = some exception)
    (hthrew : ∀ e ∈ events, ∀ exception, e.consumerThrew? = some exception →
      m'.pending = some exception) :
    ∀ e ∈ m.history ++ events, ∀ exception, e.consumerThrew? = some exception →
      m'.pending = some exception := by
  intro e he exception hexception
  rcases List.mem_append.mp he with he | he
  · exact hkept exception (h.pending e he exception hexception)
  · exact hthrew e he exception hexception

theorem Accounted.quiet (h : Accounted chained m) (hquiet : Quiet m m' events) :
    Accounted chained m' := by
  have hfields := hquiet.fields
  simp only [DecodeContext.streamInfoFields, Prod.mk.injEq] at hfields
  obtain ⟨hsaw, htotal, hinfo, -, hcount, -⟩ := hfields
  have hfirst : firstStreamInfo? m'.history = firstStreamInfo? m.history := by
    rw [hquiet.history, firstStreamInfo?_append,
      firstStreamInfo?_eq_none.mpr fun e he => (hquiet.noStreamInfo e he).1, Option.or_none]
  have hreceived : streamInfoCount m'.history = streamInfoCount m.history := by
    rw [hquiet.history, streamInfoCount_append,
      streamInfoCount_eq_zero fun e he => (hquiet.noStreamInfo e he).1, Nat.add_zero]
  refine ⟨⟨?_, ?_, ?_, ?_, ?_⟩, ?_, ?_⟩
  · rw [hquiet.history, List.countP_append,
      countP_isStreamInfo fun e he => (hquiet.noStreamInfo e he).2]
    exact h.once
  · rw [hquiet.history]
    refine List.pairwise_append.mpr ⟨h.first, ?_, fun _ _ later hlater _ =>
      (hquiet.noStreamInfo later hlater).2⟩
    exact List.pairwise_of_forall_mem_list fun _ _ later hlater _ =>
      (hquiet.noStreamInfo later hlater).2
  · rw [hfirst, hsaw, hinfo, htotal]
    exact h.kept
  · rw [hquiet.history]
    exact h.stops_append hquiet.stops hquiet.passive
  · rw [hquiet.history]
    exact h.pending_append hquiet.pending hquiet.threw
  · rw [hfirst, hcount, hquiet.history]
    intro hnone
    exact ⟨(h.unstarted hnone).1, fun e he => (List.mem_append.mp he).elim
      ((h.unstarted hnone).2 e) fun he => (hquiet.noStreamInfo e he).2⟩
  · rw [hfirst, hcount, hreceived]
    exact h.started

/-- Whatever brings no STREAMINFO keeps the invariant. -/
theorem Dutiful.quiet (h : Dutiful chained m) (hquiet : Quiet m m' events) :
    Dutiful chained m' := by
  have hfields := hquiet.fields
  simp only [DecodeContext.streamInfoFields, Prod.mk.injEq] at hfields
  refine ⟨hfields.2.2.2.2.2.trans h.push, hfields.2.2.2.1.trans h.mode, fun horderly => ?_⟩
  rw [hquiet.history] at horderly
  exact (h.accounted horderly.left).quiet hquiet

/-! ## STREAMINFO callbacks -/

/-- The record of a STREAMINFO callback and of what it led to. -/
def received (m : Machine) (info : StreamInfo) (events : List Event) : List Event :=
  m.history ++ .metadataCallback (.streamInfo info) :: events

theorem firstStreamInfo?_received (info : StreamInfo) :
    firstStreamInfo? (received m info events) =
      some ((firstStreamInfo? m.history).getD info) := by
  have hrest : firstStreamInfo? (.metadataCallback (.streamInfo info) :: events) = some info := rfl
  rw [received, firstStreamInfo?_append, hrest]
  cases firstStreamInfo? m.history <;> rfl

/-- The callback is counted. -/
theorem streamInfoCount_received_le (m : Machine) (info : StreamInfo) (events : List Event) :
    streamInfoCount m.history + 1 ≤ streamInfoCount (received m info events) := by
  rw [received, streamInfoCount_append, Nat.add_le_add_iff_left]
  exact List.countP_pos_iff.mpr ⟨_, List.mem_cons_self, rfl⟩

theorem StreamInfoCalls.countP_le {info : StreamInfo} {before after : Option Throwable}
    (h : StreamInfoCalls info before events after) : events.countP Event.isStreamInfo ≤ 1 := by
  cases h <;> simp [List.countP_cons, Event.isStreamInfo]

theorem StreamInfoCalls.passive {info : StreamInfo} {before after : Option Throwable}
    (h : StreamInfoCalls info before events after) (hbefore : before ≠ none) :
    ∀ e ∈ events, e.Passive := by
  cases h with
  | suppressed => simp
  | skipped => simp [Event.Passive, Event.isConsumer, Event.raises]
  | notCreated => exact absurd rfl hbefore
  | threw => exact absurd rfl hbefore
  | delivered => exact absurd rfl hbefore

theorem StreamInfoCalls.stops {info : StreamInfo} {before after : Option Throwable}
    (h : StreamInfoCalls info before events after) : StopsAtException events := by
  cases h with
  | suppressed => exact List.Pairwise.nil
  | skipped => exact List.pairwise_singleton _ _
  | notCreated => exact List.pairwise_singleton _ _
  | threw => exact List.pairwise_pair.mpr fun h => absurd rfl h
  | delivered => exact List.pairwise_pair.mpr fun h => absurd rfl h

theorem StreamInfoCalls.threw_pending {info : StreamInfo} {before after : Option Throwable}
    (h : StreamInfoCalls info before events after) :
    ∀ e ∈ events, ∀ exception, e.consumerThrew? = some exception → after = some exception := by
  cases h <;> simp [Event.consumerThrew?]

/-- The first STREAMINFO: nothing was delivered before, and it is the one that is kept. -/
theorem Accounted.capture {info publicInfo : StreamInfo} (h : Accounted chained m)
    (hfirst : firstStreamInfo? m.history = none) (hpcm : ∀ e ∈ m.history, e.isPcm = false)
    (hcalls : StreamInfoCalls publicInfo m.pending events m'.pending)
    (hhistory : m'.history = received m info events)
    (hkept : m'.context.sawStreamInfo = true ∧ m'.context.streamInfo = info ∧
      m'.context.streamTotalSamples = info.totalSamples)
    (hcount : chained = true → m'.context.chainedLinkCount = 1) : Accounted chained m' := by
  have hfirst' : firstStreamInfo? m'.history = some info := by
    rw [hhistory, firstStreamInfo?_received, hfirst, Option.getD_none]
  have hcallback : (Event.metadataCallback (.streamInfo info)).Passive := ⟨rfl, rfl⟩
  have hquiet := (h.unstarted hfirst).2
  have hpcmEvents : ∀ e ∈ events, e.isPcm = false := fun e he => (hcalls.ordinary e he).2
  refine ⟨⟨?_, ?_, ?_, ?_, ?_⟩, ?_, fun hchained _ _ => ?_⟩
  · rw [hhistory, received, List.countP_append, countP_isStreamInfo hquiet, Nat.zero_add,
      List.countP_cons_of_neg (by simp [Event.isStreamInfo])]
    exact hcalls.countP_le
  · have hall : ∀ e ∈ received m info events, e.isPcm = false := by
      intro e he
      rcases List.mem_append.mp he with he | he
      · exact hpcm e he
      · rcases List.mem_cons.mp he with rfl | he
        · rfl
        · exact hpcmEvents e he
    rw [hhistory]
    refine List.pairwise_of_forall_mem_list fun earlier hearlier _ _ hisPcm => ?_
    rw [hall earlier hearlier] at hisPcm
    cases hisPcm
  · intro first hreceived
    rw [hfirst', Option.some.injEq] at hreceived
    exact hreceived ▸ hkept
  · rw [hhistory]
    refine h.stops_append (List.pairwise_cons.mpr ⟨fun _ _ hthrew => absurd rfl hthrew,
      hcalls.stops⟩) fun hpending e he => ?_
    rcases List.mem_cons.mp he with rfl | he
    · exact hcallback
    · exact hcalls.passive hpending e he
  · rw [hhistory]
    refine h.pending_append (fun _ => hcalls.pending) fun e he exception hthrew => ?_
    rcases List.mem_cons.mp he with rfl | he
    · cases hthrew
    · exact hcalls.threw_pending e he exception hthrew
  · intro hnone
    rw [hfirst'] at hnone
    cases hnone
  · have hreceived := streamInfoCount_received_le m info events
    rw [hcount hchained, hhistory]
    omega

/-- A later STREAMINFO of a chain: the first one is kept, and what happens is `events`. -/
theorem Accounted.nextLink {info first : StreamInfo} (h : Accounted chained m)
    (hfirst : firstStreamInfo? m.history = some first)
    (hhistory : m'.history = received m info events)
    (hevents : ∀ e ∈ events, e.isConsumer = false)
    (hsilent : events = [] ∧ m'.pending = m.pending ∨
      ∀ e ∈ m.history, e.consumerThrew? = none)
    (hkept : m'.context.sawStreamInfo = m.context.sawStreamInfo ∧
      m'.context.streamInfo = m.context.streamInfo ∧
      m'.context.streamTotalSamples = m.context.streamTotalSamples)
    (hcount : streamInfoCount m'.history < 4294967296 →
      0 < m'.context.chainedLinkCount ∧
        m'.context.chainedLinkCount ≤ streamInfoCount m'.history) :
    Accounted chained m' := by
  have hfirst' : firstStreamInfo? m'.history = some first := by
    rw [hhistory, firstStreamInfo?_received, hfirst, Option.getD_some]
  have hadded : ∀ e ∈ Event.metadataCallback (.streamInfo info) :: events,
      e.isConsumer = false := by
    intro e he
    rcases List.mem_cons.mp he with rfl | he
    · rfl
    · exact hevents e he
  have hthrew : ∀ e ∈ Event.metadataCallback (.streamInfo info) :: events,
      e.consumerThrew? = none := fun e he => Event.consumerThrew?_eq_none (hadded e he)
  refine ⟨⟨?_, ?_, ?_, ?_, ?_⟩, ?_, fun _ _ => hcount⟩
  · rw [hhistory, received, List.countP_append,
      countP_isStreamInfo fun e he => Event.isStreamInfo_eq_false (hadded e he)]
    exact h.once
  · rw [hhistory]
    refine List.pairwise_append.mpr ⟨h.first, ?_, fun _ _ later hlater _ =>
      Event.isStreamInfo_eq_false (hadded later hlater)⟩
    exact List.pairwise_of_forall_mem_list fun _ _ later hlater _ =>
      Event.isStreamInfo_eq_false (hadded later hlater)
  · rw [hfirst', hkept.1, hkept.2.1, hkept.2.2, ← hfirst]
    exact h.kept
  · rw [hhistory]
    rcases hsilent with ⟨rfl, -⟩ | hsilent
    · exact h.stops_append (List.pairwise_singleton _ _) (by simp [Event.Passive, Event.isConsumer,
        Event.raises])
    · refine .of_quiet fun e he => ?_
      exact (List.mem_append.mp he).elim (hsilent e) (hthrew e)
  · rw [hhistory]
    intro e he exception hexception
    rcases List.mem_append.mp he with he | he
    · rcases hsilent with ⟨-, hpending⟩ | hsilent
      · rw [hpending]
        exact h.pending e he exception hexception
      · rw [hsilent e he] at hexception
        cases hexception
    · rw [hthrew e he] at hexception
      cases hexception
  · intro hnone
    rw [hfirst'] at hnone
    cases hnone

/-- The metadata callback, when it brings STREAMINFO in order. -/
theorem Dutiful.streamInfo {info : StreamInfo} (h : Dutiful chained m)
    (hstep : MetadataStep (m.record (.metadataCallback (.streamInfo info))) (.streamInfo info)
      m') : Dutiful chained m' := by
  have hat : Orderly chained m'.history → ∀ events, m'.history = received m info events →
      Accounted chained m ∧ OrderlyAt chained m.history info := by
    intro horderly events hhistory
    rw [hhistory] at horderly
    exact ⟨h.accounted horderly.left, horderly m.history info events rfl⟩
  have hcaptured : ∀ publicInfo events, firstStreamInfo? m.history = none →
      StreamInfoCalls publicInfo m.pending events m'.pending →
      m'.history = received m info events →
      m'.context.sawStreamInfo = true ∧ m'.context.streamInfo = info ∧
        m'.context.streamTotalSamples = info.totalSamples →
      (chained = true → m'.context.chainedLinkCount = 1) → Orderly chained m'.history →
      Accounted chained m' := by
    intro publicInfo events hfirst hcalls hhistory hkept hcount horderly
    obtain ⟨haccounted, hpcm⟩ := hat horderly events hhistory
    unfold OrderlyAt at hpcm
    rw [hfirst] at hpcm
    exact haccounted.capture hfirst hpcm hcalls hhistory hkept hcount
  cases hstep with
  | laterLink _ hchained hcount hshape =>
    refine ⟨h.push, h.mode, fun horderly => ?_⟩
    obtain ⟨haccounted, -⟩ := hat horderly [] (by simp [received])
    obtain ⟨first, hfirst⟩ := Option.ne_none_iff_exists'.mp fun hnone =>
      absurd hcount (by simp [(haccounted.unstarted hnone).1])
    have hhistory : m.history ++ [.metadataCallback (.streamInfo info)] = received m info [] := rfl
    refine haccounted.nextLink hfirst hhistory (by simp) (.inl ⟨rfl, rfl⟩) ⟨rfl, rfl, rfl⟩
      fun hbound => ?_
    -- below the bound the 32-bit counter does not wrap
    have hreceived := streamInfoCount_received_le m info []
    rw [← hhistory] at hreceived
    have hreceived' : streamInfoCount m.history + 1 < 4294967296 :=
      Nat.lt_of_le_of_lt hreceived hbound
    obtain ⟨-, hle⟩ := haccounted.started (h.mode.symm.trans hchained) (by simp [hfirst]) (by omega)
    show 0 < add32 m.context.chainedLinkCount 1 ∧ add32 m.context.chainedLinkCount 1 ≤ _
    rw [add32_of_lt (by omega)]
    exact ⟨Nat.succ_pos _, Nat.le_trans (by omega) hreceived⟩
  | mismatch _ hchained hcount hshape =>
    refine ⟨h.push, h.mode, fun horderly => ?_⟩
    have hhistory : (m.record (.metadataCallback (.streamInfo info))).history ++
        [.raised (.flacDecodeException chainShapeMessage)] = received m info
          [.raised (.flacDecodeException chainShapeMessage)] := by simp [received]
    obtain ⟨haccounted, horderlyAt⟩ := hat horderly _ hhistory
    obtain ⟨first, hfirst⟩ := Option.ne_none_iff_exists'.mp fun hnone =>
      absurd hcount (by simp [(haccounted.unstarted hnone).1])
    have hkept := haccounted.kept first hfirst
    unfold OrderlyAt at horderlyAt
    rw [hfirst] at horderlyAt
    have hsilent : ∀ e ∈ m.history, e.consumerThrew? = none :=
      horderlyAt.2.2.resolve_left fun hsame => hshape (by rw [record_context, hkept.2.1]; exact hsame)
    obtain ⟨-, hle⟩ := haccounted.started (h.mode.symm.trans hchained) (by simp [hfirst])
      horderlyAt.2.1
    refine haccounted.nextLink hfirst hhistory (by simp [Event.isConsumer])
      (.inr hsilent) ⟨rfl, rfl, rfl⟩ fun _ => ⟨hcount, Nat.le_trans hle ?_⟩
    have hreceived := streamInfoCount_received_le m info
      [.raised (.flacDecodeException chainShapeMessage)]
    rw [← hhistory] at hreceived
    exact Nat.le_trans (Nat.le_succ _) hreceived
  | firstLink _ events after hchained hcount hcalls =>
    refine ⟨h.push, h.mode, fun horderly => ?_⟩
    have hhistory : (m.record (.metadataCallback (.streamInfo info))).history ++ events =
        received m info events := by simp [received]
    obtain ⟨haccounted, horderlyAt⟩ := hat horderly events hhistory
    have hfirst : firstStreamInfo? m.history = none := by
      by_contra hsome
      obtain ⟨first, hfirst⟩ := Option.ne_none_iff_exists'.mp hsome
      unfold OrderlyAt at horderlyAt
      rw [hfirst] at horderlyAt
      have hpos := haccounted.started (h.mode.symm.trans hchained) hsome horderlyAt.2.1
      exact absurd hcount (by simp; omega)
    exact hcaptured _ events hfirst hcalls hhistory ⟨rfl, rfl, rfl⟩ (fun _ => rfl) horderly
  | stored _ events after hchained hcalls =>
    refine ⟨h.push, h.mode, fun horderly => ?_⟩
    have hhistory : (m.record (.metadataCallback (.streamInfo info))).history ++ events =
        received m info events := by simp [received]
    have hunchained : chained = false := h.mode.symm.trans hchained
    obtain ⟨-, horderlyAt⟩ := hat horderly events hhistory
    have hfirst : firstStreamInfo? m.history = none := by
      by_contra hsome
      obtain ⟨first, hfirst⟩ := Option.ne_none_iff_exists'.mp hsome
      unfold OrderlyAt at horderlyAt
      rw [hfirst, hunchained] at horderlyAt
      cases horderlyAt.1
    exact hcaptured _ events hfirst hcalls hhistory ⟨rfl, rfl, rfl⟩
      (fun hchained' => absurd hchained' (by simp [hunchained])) horderly

end Steps

/-! ## libFLAC calls -/

section Calls

variable {chained : Bool} {m : Machine}

theorem Dutiful.record (h : Dutiful chained m) (event : Event)
    (hreceived : event.received? = none) (hpassive : event.Passive) :
    Dutiful chained (m.record event) :=
  h.quiet (.record hreceived hpassive)

theorem Dutiful.withContext (h : Dutiful chained m) {c : DecodeContext}
    (hfields : c.streamInfoFields = m.context.streamInfoFields) :
    Dutiful chained (m.withContext c) :=
  h.quiet (.withContext hfields)

/-- A check may raise where nothing is pending. -/
theorem Dutiful.throwDecode (h : Dutiful chained m) (hnone : m.pending = none)
    (message : String) : Dutiful chained (m.throwDecode message) :=
  h.quiet (.of_internal (throwDecode_history m message) rfl hnone (by simp [Event.isInternal]))

theorem Dutiful.error (h : Dutiful chained m) (status : ErrorStatus) :
    Dutiful chained (decodeErrorCallback status (m.record (.errorCallback status))) :=
  (h.record (.errorCallback status) rfl ⟨rfl, rfl⟩).withContext rfl

/-- Every callback keeps the invariant. -/
theorem Dutiful.handle (h : Dutiful chained m) (J : Jvm) (callback : Callback)
    (calls : List TransportCall) : Dutiful chained (handle J callback (m, calls)).2.1 := by
  cases callback with
  | write frame =>
    have hrecord := h.record (.writeCallback frame) rfl ⟨rfl, rfl⟩
    obtain ⟨events, hquiet⟩ := (decodeWriteCallback_step J frame hrecord.push).quiet
    exact hrecord.quiet hquiet
  | error status => exact h.error status
  | transport callback =>
    obtain ⟨events, hquiet⟩ := (handleTransport_step J callback m calls).quiet
    exact h.quiet hquiet
  | metadata block =>
    have hstep := decodeMetadataCallback_step J block (m.record (.metadataCallback block))
    cases block with
    | other => exact h.record _ rfl ⟨rfl, rfl⟩
    | streamInfo info => exact h.streamInfo hstep

theorem Dutiful.call (h : Dutiful chained m) (F : LibFlac D) (J : Jvm) (api : Api)
    (activity : Activity D) (calls : List TransportCall) :
    Dutiful chained (F.call J api activity calls m).2.2 := by
  have hrun : Dutiful chained (activity.run (Decode.handle J) (m, calls)).2.1 :=
    Lib.Calls.run_invariant (P := fun s : Machine × List TransportCall => Dutiful chained s.1)
      (fun callback s hs => hs.handle J callback s.2) activity h
  exact hrun.record _ rfl ⟨rfl, rfl⟩

theorem Dutiful.callFinishLink (h : Dutiful chained m) (F : LibFlac D) (s : Stream D) :
    Dutiful chained (F.callFinishLink s m).2.2 := by
  have hfold : ∀ (statuses : List ErrorStatus) (m : Machine), Dutiful chained m →
      Dutiful chained (statuses.foldl
        (fun m status => decodeErrorCallback status (m.record (.errorCallback status))) m) := by
    intro statuses
    induction statuses with
    | nil => exact fun m hm => hm
    | cons status statuses ih => exact fun m hm => ih _ (hm.error status)
  exact (hfold _ m h).record _ rfl ⟨rfl, rfl⟩

theorem Dutiful.callFinish (h : Dutiful chained m) (F : LibFlac D) (s : Stream D) :
    Dutiful chained (F.callFinish s m).2 :=
  h.record _ rfl ⟨rfl, rfl⟩

/-! ## Processing -/

theorem Dutiful.physicalEof (h : Dutiful chained m) (hnone : m.pending = none) :
    Dutiful chained (validatePhysicalEofSampleCount m).2 := by
  rcases validatePhysicalEofSampleCount_cases hnone with ⟨-, heq⟩ | ⟨-, heq⟩
  · rw [heq]
    exact h
  · rw [heq]
    exact h.throwDecode hnone _

theorem Dutiful.linkCount (h : Dutiful chained m) (hnone : m.pending = none) :
    Dutiful chained (validateChainedLinkSampleCount m).2 := by
  rcases validateChainedLinkSampleCount_cases m with heq | heq
  · rw [heq]
    exact h
  · rw [heq]
    exact h.throwDecode hnone _

theorem processToEnd_dutiful (F : LibFlac D) (J : Jvm) (s : Stream D) (h : Dutiful chained m) :
    Dutiful chained (processToEnd F J s m).2.2 := by
  unfold processToEnd
  have hcall := h.call F J .processUntilEndOfStream (F.processUntilEndOfStream s.decoder)
    s.transportCalls
  generalize F.call J .processUntilEndOfStream _ _ m = stream at hcall
  dsimp only
  split
  · exact hcall
  rename_i hcheck
  split
  · exact hcall
  · exact hcall.physicalEof (check_cases hcheck).2.2

theorem processRange_dutiful (F : LibFlac D) (J : Jvm) (fuel : ℕ) (s : Stream D)
    (h : Dutiful chained m) : Dutiful chained (processRange F J fuel s m).2.2 := by
  induction fuel generalizing s m with
  | zero => exact h
  | succ fuel ih =>
    unfold processRange
    split
    · exact h
    split
    · exact h
    have hcall := h.call F J .processSingle (F.processSingle s.decoder) s.transportCalls
    generalize F.call J .processSingle _ _ m = single at hcall
    dsimp only
    split
    · exact hcall
    split
    · exact hcall
    rename_i hpending
    split
    · exact hcall.physicalEof (pending_eq_none hpending)
    · exact hcall
    · exact ih _ hcall

theorem processLinks_dutiful (F : LibFlac D) (J : Jvm) (fuel : ℕ) (s : Stream D)
    (h : Dutiful chained m) : Dutiful chained (processLinks F J fuel s m).2.2 := by
  induction fuel generalizing s m with
  | zero => exact h
  | succ fuel ih =>
    unfold processLinks
    have hcall := h.call F J .processUntilEndOfLink (F.processUntilEndOfLink s.decoder)
      s.transportCalls
    generalize F.call J .processUntilEndOfLink _ _ m = link at hcall
    dsimp only
    split
    · exact hcall
    rename_i hcheck
    have hcount := hcall.linkCount (check_cases hcheck).2.2
    generalize validateChainedLinkSampleCount link.2.2 = count at hcount
    split
    · exact hcount
    · split
      · exact hcount
      have hfinish := hcount.callFinishLink F link.2.1
      generalize F.callFinishLink link.2.1 count.2 = finish at hfinish
      split
      · exact hfinish
      split
      · exact hfinish.withContext rfl
      · exact ih _ hfinish
    · exact hcall

theorem processDecodeStream_dutiful (F : LibFlac D) (J : Jvm) (fuel : ℕ) (s : Stream D)
    (h : Dutiful chained m) : Dutiful chained (processDecodeStream F J fuel s m).2.2 := by
  unfold processDecodeStream
  split
  · exact processRange_dutiful F J fuel s h
  split
  · exact processLinks_dutiful F J fuel s h
  · exact processToEnd_dutiful F J s h

/-! ## The end of a one-shot decode -/

/-- Every report is gated: it never replaces a pending exception. -/
theorem Dutiful.reportIf (h : Dutiful chained m) (condition : Bool) (message : String) :
    Dutiful chained (m.reportIf condition message) := by
  unfold Machine.reportIf
  split
  · rename_i hgate
    rw [Bool.and_eq_true, Bool.not_eq_true'] at hgate
    exact h.quiet (.of_internal (report_history m message) rfl
      (exceptionCheck_eq_false.mp hgate.1) (by simp [Event.isInternal]))
  · exact h

theorem Dutiful.reportFailure (h : Dutiful chained m) (what : String)
    (checkMd5 success finished : Bool) (state : Option String) :
    Dutiful chained (reportFailure what checkMd5 success finished state m) :=
  (((h.reportIf _ _).reportIf _ _).reportIf _ _).reportIf _ _

/-- `onComplete`, where nothing is pending. -/
theorem Dutiful.complete (h : Dutiful chained m) (J : Jvm) (hnone : m.pending = none) :
    Dutiful chained (m.callJava J .onComplete) := by
  have hquiet : ∀ outcome pending, (∀ exception, outcome = .threw exception →
      pending = some exception) →
      Quiet m { m with pending := pending, history := m.history ++ [.java .onComplete outcome] }
        [.java .onComplete outcome] := by
    intro outcome pending hpending
    refine ⟨rfl, rfl, fun _ h => ?_, by simp [Event.received?, Event.isStreamInfo],
      fun h => absurd hnone h, List.pairwise_singleton _ _, ?_⟩
    · rw [hnone] at h
      cases h
    · intro e he exception hexception
      rw [List.mem_singleton.mp he] at hexception
      cases outcome with
      | threw thrown => exact hpending exception (congrArg _ (Option.some.inj hexception))
      | returned => cases hexception
      | skipped => cases hexception
  rcases callJava_cases J .onComplete hnone with heq | ⟨exception, heq⟩
  · rw [heq]
    exact h.quiet (hquiet .returned m.pending nofun)
  · rw [heq]
    exact h.quiet (hquiet (.threw exception) (some exception) fun _ heq => by
      rw [JavaOutcome.threw.inj heq])

theorem finishDecode_dutiful (F : LibFlac D) (J : Jvm) (what : String) (checkMd5 success : Bool)
    (s : Stream D) (h : Dutiful chained m) :
    Dutiful chained (finishDecode F J what checkMd5 success s m) := by
  unfold finishDecode
  dsimp only
  have hreport := (h.callFinish F s).reportFailure what checkMd5 success (F.callFinish s m).1
    (copyResolvedDecoderState (F.getResolvedStateString s.decoder))
  split
  · rename_i hgate
    simp only [Bool.and_eq_true, Bool.not_eq_true'] at hgate
    exact hreport.complete J (exceptionCheck_eq_false.mp hgate.1.1)
  · exact hreport

theorem processAndFinish_dutiful (F : LibFlac D) (J : Jvm) (fuel : ℕ) (what : String)
    (checkMd5 : Bool) (s : Stream D) (h : Dutiful chained m) :
    Dutiful chained (processAndFinish F J fuel what checkMd5 s m).machine := by
  unfold processAndFinish
  have hprocess := processDecodeStream_dutiful F J fuel s h
  split
  · rename_i heq
    rw [heq] at hprocess
    exact hprocess
  · rename_i heq
    rw [heq] at hprocess
    exact finishDecode_dutiful F J what checkMd5 _ _ hprocess

theorem abandonDecode_dutiful (F : LibFlac D) (failure : String) (s : Stream D)
    (h : Dutiful chained m) : Dutiful chained (abandonDecode F failure s m).machine :=
  (h.reportIf _ _).callFinish F s

theorem completeEmptyRange_dutiful (F : LibFlac D) (J : Jvm) (s : Stream D)
    (h : Dutiful chained m) : Dutiful chained (completeEmptyRange F J s m).machine := by
  unfold completeEmptyRange
  dsimp only
  split
  · rename_i hgate
    rw [Bool.and_eq_true, Bool.not_eq_true'] at hgate
    exact (h.callFinish F s).complete J (exceptionCheck_eq_false.mp hgate.1)
  · exact h.callFinish F s

theorem seekAndProcess_dutiful (F : LibFlac D) (J : Jvm) (fuel : ℕ) (what : String)
    (request : DecodeRequest) (s : Stream D) (h : Dutiful chained m) :
    Dutiful chained (seekAndProcess F J fuel what request s m).machine := by
  have hseek : Dutiful chained (seekToFirstSample F J request.firstSample s m).2.2 := by
    unfold seekToFirstSample
    split
    · exact h
    · exact h.call F J _ _ _
  unfold seekAndProcess
  dsimp only
  split
  · exact abandonDecode_dutiful F _ _ hseek
  · exact processAndFinish_dutiful F J fuel what _ _ hseek

theorem decodeInitialised_dutiful (F : LibFlac D) (J : Jvm) (fuel : ℕ) (what : String)
    (request : DecodeRequest) (s : Stream D) (h : Dutiful chained m) :
    Dutiful chained (decodeInitialised F J fuel what request s m).machine := by
  unfold decodeInitialised
  split
  swap
  · exact processAndFinish_dutiful F J fuel what _ s h
  have hmetadata := h.call F J .processUntilEndOfMetadata (F.processUntilEndOfMetadata s.decoder)
    s.transportCalls
  generalize F.call J .processUntilEndOfMetadata _ _ m = metadata at hmetadata
  dsimp only
  split
  · exact abandonDecode_dutiful F _ _ hmetadata
  rename_i hcheck
  simp only [Bool.or_eq_true, not_or, Bool.not_eq_true] at hcheck
  split
  · exact (hmetadata.callFinish F _).throwDecode (exceptionCheck_eq_false.mp hcheck.1.1) _
  split
  · exact completeEmptyRange_dutiful F J _ hmetadata
  · exact seekAndProcess_dutiful F J fuel what request _ hmetadata

end Calls

/-! ## Every one-shot decode -/

/-- Internal events say nothing about STREAMINFO. -/
theorem StreamInfoFirst.of_internal {m : Machine}
    (hinternal : ∀ e ∈ m.history, e.isInternal = true) : StreamInfoFirst m := by
  have hconsumer : ∀ e ∈ m.history, e.isConsumer = false := fun e he =>
    Event.isConsumer_of_isInternal (hinternal e he)
  have hstreamInfo : ∀ e ∈ m.history, e.isStreamInfo = false := fun e he =>
    Event.isStreamInfo_eq_false (hconsumer e he)
  refine ⟨by rw [countP_isStreamInfo hstreamInfo]; exact Nat.zero_le 1,
    List.pairwise_of_forall_mem_list fun _ _ later hlater _ => hstreamInfo later hlater,
    fun info hfirst => ?_, .of_quiet fun e he => Event.consumerThrew?_eq_none (hconsumer e he),
    fun e he exception hexception => ?_⟩
  · rw [firstStreamInfo?_eq_none.mpr fun e he => Event.received?_of_isInternal (hinternal e he)]
      at hfirst
    cases hfirst
  · rw [Event.consumerThrew?_eq_none (hconsumer e he)] at hexception
    cases hexception

/-- Every one-shot decode keeps its duties if its STREAMINFO comes in order. -/
theorem OneShot.streamInfoFirst {F : LibFlac D} {J : Jvm} {fuel : ℕ} {transport : Transport}
    {request : DecodeRequest} {outcome : Outcome} (h : OneShot F J fuel transport request outcome)
    (horderly : Orderly request.decodeChainedOgg outcome.machine.history) :
    StreamInfoFirst outcome.machine := by
  cases h with
  | rejected m hrejected =>
    obtain ⟨extra, hhistory, hinternal⟩ := hrejected.adds
    refine .of_internal fun e he => hinternal e ?_
    simpa [hhistory, Machine.start] using he
  | initialised source s m hadds hnone hcontext hrequest =>
    obtain ⟨extra, hhistory, hinternal⟩ := hadds
    have hhistory : m.history = extra := by simpa [Machine.start] using hhistory
    have hinternal : ∀ e ∈ m.history, e.isInternal = true := by rwa [hhistory]
    have hstart : Dutiful request.decodeChainedOgg m := by
      refine ⟨by rw [hcontext]; rfl, by rw [hcontext]; rfl, fun _ =>
        ⟨.of_internal hinternal, fun _ => ⟨by rw [hcontext]; rfl, fun e he => ?_⟩,
          fun _ hfirst => ?_⟩⟩
      · exact Event.isStreamInfo_eq_false (Event.isConsumer_of_isInternal (hinternal e he))
      · exact absurd (firstStreamInfo?_eq_none.mpr fun e he =>
          Event.received?_of_isInternal (hinternal e he)) hfirst
    exact ((decodeInitialised_dutiful F J fuel _ request s hstart).accounted
      horderly).toStreamInfoFirst

/-- In every one-shot decode whose STREAMINFO callbacks come in order, STREAMINFO is delivered once
and first, the first one is kept, and a consumer's exception ends everything. -/
theorem oneShot_streamInfoFirst (F : LibFlac D) (J : Jvm) (fuel : ℕ) :
    (∀ path consumer request,
      Orderly request.decodeChainedOgg
        (decodeFileInternal F J fuel path consumer request).machine.history →
      StreamInfoFirst (decodeFileInternal F J fuel path consumer request).machine) ∧
    (∀ stream consumer container checkMd5 decodeChainedOgg,
      Orderly decodeChainedOgg (decodeStreamInternal F J fuel stream consumer container checkMd5
        decodeChainedOgg).machine.history →
      StreamInfoFirst (decodeStreamInternal F J fuel stream consumer container checkMd5
        decodeChainedOgg).machine) ∧
    ∀ channel consumer request,
      Orderly request.decodeChainedOgg
        (decodeChannelInternal F J fuel channel consumer request).machine.history →
      StreamInfoFirst (decodeChannelInternal F J fuel channel consumer request).machine :=
  ⟨fun path consumer request =>
      (decodeFileInternal_oneShot F J fuel path consumer request).streamInfoFirst,
    fun stream consumer container checkMd5 decodeChainedOgg =>
      (decodeStreamInternal_oneShot F J fuel stream consumer container checkMd5
        decodeChainedOgg).streamInfoFirst,
    fun channel consumer request =>
      (decodeChannelInternal_oneShot F J fuel channel consumer request).streamInfoFirst⟩

/-! ## Orderly records can be recognised -/

theorem orderly_iff {chained : Bool} {events : List Event} :
    Orderly chained events ↔ ∀ n < events.length, ∀ info,
      (events[n]?.bind Event.received?) = some info →
        OrderlyAt chained (events.take n) info := by
  constructor
  · intro h n hn info hinfo
    rw [List.getElem?_eq_getElem hn, Option.bind_some] at hinfo
    refine h (events.take n) info (events.drop (n + 1)) ?_
    have hcallback : events[n] = .metadataCallback (.streamInfo info) := by
      generalize events[n] = e at hinfo
      unfold Event.received? at hinfo
      split at hinfo
      · rw [Option.some.inj hinfo]
      · cases hinfo
    rw [← hcallback, List.getElem_cons_drop, List.take_append_drop]
  · intro h before info after hevents
    have hat := h before.length (by simp [hevents]) info (by simp [hevents, Event.received?])
    rwa [hevents, List.take_left] at hat

instance (chained : Bool) (before : List Event) (info : StreamInfo) :
    Decidable (OrderlyAt chained before info) := by
  unfold OrderlyAt
  split <;> infer_instance

instance (chained : Bool) (events : List Event) : Decidable (Orderly chained events) :=
  decidable_of_iff (∀ n < events.length, ∀ info ∈ events[n]?.bind Event.received?,
    OrderlyAt chained (events.take n) info) orderly_iff.symm

/-- A file with one STREAMINFO block and one audio block. -/
def singleStreamInfo : LibFlac Scripted :=
  scripted [⟨[.metadata (.streamInfo { StreamInfo.zero with channels := 1, totalSamples := 1 }),
    .write (silentFrame 1 1 one_lt_uint32 one_lt_uint32)], true, .endOfStream⟩]

theorem oneShot_streamInfoFirst_single :
    StreamInfoFirst
      (decodeFileInternal singleStreamInfo quietJvm 0 true true (.whole 0 false false)).machine :=
  (oneShot_streamInfoFirst singleStreamInfo quietJvm 0).1 true true (.whole 0 false false)
    (by decide +kernel)

/-- A file whose metadata holds two STREAMINFO blocks: the first declares two frames, the second
one, and one frame follows. -/
def repeatedStreamInfo : LibFlac Scripted :=
  scripted [⟨[.metadata (.streamInfo { StreamInfo.zero with channels := 1, totalSamples := 2 }),
    .metadata (.streamInfo { StreamInfo.zero with channels := 1, totalSamples := 1 }),
    .write (silentFrame 1 1 one_lt_uint32 one_lt_uint32)], true, .endOfStream⟩]

/-- A consumer that does not want STREAMINFO. -/
def refusingJvm : Jvm :=
  { quietJvm with
    throws := fun _ call =>
      match call with
      | .onStreamInfo _ => some (.java 0)
      | _ => none }

/-- A chain whose first link holds two STREAMINFO blocks of different shapes. -/
def reshapedLink : LibFlac Scripted :=
  scripted [⟨[.metadata (.streamInfo { StreamInfo.zero with channels := 1 }),
    .metadata (.streamInfo { StreamInfo.zero with channels := 2 })], true, .endOfStream⟩]

/-- The whole-file decode of the first file. -/
def repeatedDecode : Machine :=
  (decodeFileInternal repeatedStreamInfo quietJvm 0 true true (.whole 0 false false)).machine

/-- The chained decode of the second, for the consumer that refuses STREAMINFO. -/
def reshapedDecode : Machine :=
  (decodeFileInternal reshapedLink refusingJvm 1 true true (.whole 1 false true)).machine

/-- The second STREAMINFO is delivered and kept, and the short file decodes without a complaint. In
a chain, the complaint about the second one replaces the exception of the consumer. -/
theorem repeatedStreamInfo_delivered :
    (¬ StreamInfoFirst repeatedDecode ∧ repeatedDecode.history.countP Event.isStreamInfo = 2 ∧
      repeatedDecode.context.streamTotalSamples = 1 ∧ repeatedDecode.pending = none) ∧
    ¬ StreamInfoFirst reshapedDecode ∧
      reshapedDecode.pending = some (.flacDecodeException chainShapeMessage) := by
  have hcount : repeatedDecode.history.countP Event.isStreamInfo = 2 := by decide +kernel
  have hpending : reshapedDecode.pending = some (.flacDecodeException chainShapeMessage) := by
    decide +kernel
  have hthrew : ∃ e ∈ reshapedDecode.history, e.consumerThrew? = some (.java 0) := by
    decide +kernel
  refine ⟨⟨fun h => ?_, hcount, by decide +kernel, by decide +kernel⟩, fun h => ?_, hpending⟩
  · have honce := h.once
    rw [hcount] at honce
    exact absurd honce (by decide)
  · obtain ⟨e, he, hexception⟩ := hthrew
    have hkept := h.pending e he _ hexception
    rw [hpending] at hkept
    cases hkept

end JFlac.Decode
