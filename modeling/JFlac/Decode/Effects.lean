import JFlac.Decode.Steps

/-!
# The effect of callbacks on the record of an operation

Whatever libFLAC does, a callback other than the error callback leaves the error flags alone,
hands PCM to the consumer only while no error was reported, and, outside chained decoding, never
replaces a pending exception. `Effect` says this of one callback.
-/

namespace JFlac.Decode

open Machine

variable {D : Type}

/-- The exception that was pending when a libFLAC function that runs callbacks returned. -/
def Event.returnedPending : Event → Option Throwable
  | .returned .finish _ _ _ => none
  | .returned _ _ _ pending => pending
  | _ => none

/-- Neither an error report, nor a completion, nor a return of libFLAC with an exception. -/
def Event.Ordinary (e : Event) : Prop :=
  e.error? = none ∧ e.isComplete = false ∧ e.returnedPending = none

theorem Event.Ordinary.of_isInternal {e : Event} (h : e.isInternal = true) : e.Ordinary := by
  cases e with
  | java call outcome => cases call <;> simp_all [isInternal, Ordinary, error?, isComplete,
      returnedPending]
  | _ => simp_all [isInternal, Ordinary, error?, isComplete, returnedPending]

theorem Event.isPcm_of_isInternal {e : Event} (h : e.isInternal = true) : e.isPcm = false := by
  cases e with
  | java call outcome => cases call <;> simp_all [isInternal, isPcm]
  | _ => rfl

/-- The record grew by events that all satisfy `P`. -/
def Adds (P : Event → Prop) (m m' : Machine) : Prop :=
  ∃ extra, m'.history = m.history ++ extra ∧ ∀ e ∈ extra, P e

namespace Adds

variable {P : Event → Prop} {m m' m'' : Machine}

theorem of_history (h : m'.history = m.history) : Adds P m m' := ⟨[], by simp [h], by simp⟩

theorem refl (m : Machine) : Adds P m m := of_history rfl

theorem trans (h : Adds P m m') (h' : Adds P m' m'') : Adds P m m'' := by
  obtain ⟨extra, hhistory, hextra⟩ := h
  obtain ⟨extra', hhistory', hextra'⟩ := h'
  exact ⟨extra ++ extra', by rw [hhistory', hhistory, List.append_assoc],
    fun e he => (List.mem_append.mp he).elim (hextra e) (hextra' e)⟩

theorem mono {Q : Event → Prop} (hPQ : ∀ e, P e → Q e) (h : Adds P m m') : Adds Q m m' := by
  obtain ⟨extra, hhistory, hextra⟩ := h
  exact ⟨extra, hhistory, fun e he => hPQ e (hextra e he)⟩

theorem single {event : Event} (hhistory : m'.history = m.history ++ [event]) (h : P event) :
    Adds P m m' := ⟨[event], hhistory, by simpa using h⟩

theorem callJava (J : Jvm) {call : JavaCall} (h : ∀ outcome, P (.java call outcome)) (m : Machine) :
    Adds P m (m.callJava J call) := by
  obtain ⟨outcome, hhistory⟩ := callJava_history J call m
  exact .single hhistory (h outcome)

end Adds

/-- The fields of the error bookkeeping, with the mode they depend on. -/
def DecodeContext.errorFields (c : DecodeContext) : Bool × ErrorStatus × Bool × Bool :=
  (c.sawError, c.firstErrorStatus, c.decodeChainedOgg, c.chainedLinkMd5Failed)

section ErrorFields

variable (c : DecodeContext)

@[simp] theorem clearDecodePullPending_errorFields :
    c.clearDecodePullPending.errorFields = c.errorFields := rfl

@[simp] theorem copyOut_errorFields (offset frames : ℕ) (samples : List Sample) :
    (c.copyOut offset frames samples).errorFields = c.errorFields := rfl

@[simp] theorem releaseDrained_errorFields : c.releaseDrained.errorFields = c.errorFields := by
  unfold DecodeContext.releaseDrained
  split <;> rfl

@[simp] theorem stash_errorFields (frame : Frame) :
    (c.stash frame).errorFields = c.errorFields := rfl

@[simp] theorem completeRange_errorFields : c.completeRange.errorFields = c.errorFields := rfl

@[simp] theorem emit_errorFields (frames : ℕ) : (c.emit frames).errorFields = c.errorFields := rfl

@[simp] theorem captured_errorFields (info : StreamInfo) :
    (c.captured info).errorFields = c.errorFields := rfl

@[simp] theorem beginLink_errorFields (info : StreamInfo) (count : ℕ) :
    (c.beginLink info count).errorFields = c.errorFields := rfl

end ErrorFields

/-- What a callback other than the error callback does to the machine. -/
structure Effect (m m' : Machine) (events : List Event) : Prop where
  history : m'.history = m.history ++ events
  errors : m'.context.errorFields = m.context.errorFields
  pending : m.context.decodeChainedOgg = false → ∀ exception, m.pending = some exception →
    m'.pending = some exception
  blame : m'.pending ≠ m.pending → ∃ e ∈ events, e.isFailure = true
  ordinary : ∀ e ∈ events, e.Ordinary
  pcm : ∀ e ∈ events, e.isPcm = true → m.context.sawError = false

namespace Effect

variable {m m' : Machine} {events : List Event}

theorem sawError (h : Effect m m' events) : m'.context.sawError = m.context.sawError :=
  congrArg (·.1) h.errors

theorem decodeChainedOgg (h : Effect m m' events) :
    m'.context.decodeChainedOgg = m.context.decodeChainedOgg :=
  congrArg (·.2.2.1) h.errors

/-- A step that changes nothing but fields outside the error bookkeeping. -/
theorem of_context (hhistory : m'.history = m.history) (hpending : m'.pending = m.pending)
    (herrors : m'.context.errorFields = m.context.errorFields) : Effect m m' [] :=
  { history := by rw [hhistory, List.append_nil]
    errors := herrors
    pending := fun _ exception h => by rw [hpending, h]
    blame := fun h => absurd hpending h
    ordinary := by simp
    pcm := by simp }

theorem withContext {c : DecodeContext} (herrors : c.errorFields = m.context.errorFields) :
    Effect m (m.withContext c) [] :=
  .of_context rfl rfl herrors

/-- A step that only raises, where nothing was pending. -/
theorem of_internal (hhistory : m'.history = m.history ++ events)
    (hcontext : m'.context = m.context) (hnone : m.pending = none)
    (hinternal : ∀ e ∈ events, e.isInternal = true)
    (hfailure : ∃ e ∈ events, e.isFailure = true) : Effect m m' events :=
  { history := hhistory
    errors := by rw [hcontext]
    pending := fun _ exception h => by rw [hnone] at h; cases h
    blame := fun _ => hfailure
    ordinary := fun e he => .of_isInternal (hinternal e he)
    pcm := fun e he hpcm => by rw [Event.isPcm_of_isInternal (hinternal e he)] at hpcm; cases hpcm }

theorem trans {m₁ m₂ m₃ : Machine} {events events' : List Event} (h : Effect m₁ m₂ events)
    (h' : Effect m₂ m₃ events') : Effect m₁ m₃ (events ++ events') :=
  { history := by rw [h'.history, h.history, List.append_assoc]
    errors := h'.errors.trans h.errors
    pending := fun hchained exception hp =>
      h'.pending (h.decodeChainedOgg.trans hchained) exception (h.pending hchained exception hp)
    blame := fun hne => by
      by_cases hfirst : m₂.pending = m₁.pending
      · obtain ⟨e, he, hfailure⟩ := h'.blame (by rwa [hfirst])
        exact ⟨e, List.mem_append_right _ he, hfailure⟩
      · obtain ⟨e, he, hfailure⟩ := h.blame hfirst
        exact ⟨e, List.mem_append_left _ he, hfailure⟩
    ordinary := fun e he => (List.mem_append.mp he).elim (h.ordinary e) (h'.ordinary e)
    pcm := fun e he hpcm => (List.mem_append.mp he).elim (fun he => h.pcm e he hpcm)
      fun he => h.sawError.symm.trans (h'.pcm e he hpcm) }

/-- Recording the arrival of a write or metadata callback. -/
theorem record {event : Event} (hordinary : event.Ordinary) (hpcm : event.isPcm = false) :
    Effect m (m.record event) [event] :=
  { history := rfl
    errors := rfl
    pending := fun _ _ h => h
    blame := fun h => absurd rfl h
    ordinary := by simpa using hordinary
    pcm := by simp [hpcm] }

end Effect

/-! ## Pull mode -/

/-- Draining pending PCM only touches the pull fields, or raises. -/
theorem drainDecodePullPending_cases {m : Machine} (hnone : m.pending = none) :
    (∃ c : DecodeContext, c.errorFields = m.context.errorFields ∧
      drainDecodePullPending m = (true, m.withContext c)) ∨
    ∃ exception, drainDecodePullPending m = (false, m.raise exception) := by
  unfold drainDecodePullPending
  dsimp only
  split
  · exact .inl ⟨_, clearDecodePullPending_errorFields _, rfl⟩
  split
  · exact .inl ⟨_, clearDecodePullPending_errorFields _, rfl⟩
  split
  · exact .inr ⟨_, rfl⟩
  split
  · exact .inl ⟨m.context, rfl, rfl⟩
  split
  · exact .inr ⟨_, rfl⟩
  split
  · rename_i hcheck
    simp [exceptionCheck, hnone] at hcheck
  · refine .inl ⟨_, ?_, rfl⟩
    rw [releaseDrained_errorFields, copyOut_errorFields]

theorem drainDecodePullPending_effect {m : Machine} (hnone : m.pending = none) :
    ∃ events, Effect m (drainDecodePullPending m).2 events ∧
      ∀ e ∈ events, e.isInternal = true := by
  obtain ⟨c, herrors, heq⟩ | ⟨exception, heq⟩ := drainDecodePullPending_cases hnone
  · rw [heq]
    exact ⟨[], .withContext herrors, by simp⟩
  · rw [heq]
    exact ⟨[_], .of_internal rfl rfl hnone (by simp [Event.isInternal]) (by simp [Event.isFailure]),
      by simp [Event.isInternal]⟩

theorem decodePullWriteCallback_effect (J : Jvm) (frame : Frame) {m : Machine}
    (hnone : m.pending = none) :
    ∃ events, Effect m (decodePullWriteCallback J frame m).2 events ∧
      ∀ e ∈ events, e.isInternal = true := by
  unfold decodePullWriteCallback
  dsimp only
  split
  · exact ⟨[_], .of_internal rfl rfl hnone (by simp [Event.isInternal]) (by simp [Event.isFailure]),
      by simp [Event.isInternal]⟩
  split
  · exact ⟨[_], .of_internal rfl rfl hnone (by simp [Event.isInternal]) (by simp [Event.isFailure]),
      by simp [Event.isInternal]⟩
  split
  · exact ⟨[_], .of_internal rfl rfl hnone (by simp [Event.isInternal]) (by simp [Event.isFailure]),
      by simp [Event.isInternal]⟩
  · obtain ⟨events, heffect, hinternal⟩ :=
      drainDecodePullPending_effect (m := m.withContext (m.context.stash frame)) hnone
    have hstash : Effect m (m.withContext (m.context.stash frame)) [] :=
      .of_context rfl rfl rfl
    exact ⟨events, hstash.trans heffect, hinternal⟩

/-! ## Each callback -/

theorem WriteStep.effect {frame : Frame} {m m' : Machine} {status : WriteStatus}
    (h : WriteStep frame m status m') : ∃ events, Effect m m' events := by
  cases h with
  | refused => exact ⟨[], .of_context rfl rfl rfl⟩
  | outside => exact ⟨[], .of_context rfl rfl rfl⟩
  | failed exception events hnone herror hinternal hfailure =>
    exact ⟨events, .of_internal rfl rfl hnone hinternal hfailure⟩
  | threw exception frames hnone herror hframes =>
    refine ⟨_, ⟨rfl, rfl, fun _ e h => ?_, fun _ => ?_, ?_, fun _ _ _ => herror⟩⟩
    · rw [hnone] at h
      cases h
    · simp [Event.isFailure]
    · simp [Event.Ordinary, Event.error?, Event.isComplete, Event.returnedPending]
  | forwarded frames hnone herror hframes hchannels hpos =>
    refine ⟨_, ⟨rfl, rfl, fun _ e h => ?_, fun h => absurd hnone.symm h, ?_,
      fun _ _ _ => herror⟩⟩
    · rw [hnone] at h
      cases h
    · simp [forwardEvents, Event.Ordinary, Event.error?, Event.isComplete, Event.returnedPending]

theorem decodeWriteCallback_effect (J : Jvm) (frame : Frame) (m : Machine) :
    ∃ events, Effect m (decodeWriteCallback J frame m).2 events := by
  by_cases hpull : m.context.pullMode = true
  · unfold decodeWriteCallback
    split
    · exact ⟨[], .of_context rfl rfl rfl⟩
    rename_i hcheck
    split
    · exact ⟨[], .of_context rfl rfl rfl⟩
    obtain ⟨events, heffect, -⟩ :=
      decodePullWriteCallback_effect J frame (pending_eq_none hcheck)
    exact ⟨events, heffect⟩
  · exact (decodeWriteCallback_step J frame (by simpa using hpull)).effect

theorem StreamInfoCalls.ordinary {info : StreamInfo} {before after : Option Throwable}
    {events : List Event} (h : StreamInfoCalls info before events after) :
    ∀ e ∈ events, e.Ordinary ∧ e.isPcm = false := by
  cases h <;>
    simp [Event.Ordinary, Event.error?, Event.isComplete, Event.returnedPending, Event.isPcm]

theorem StreamInfoCalls.blame {info : StreamInfo} {before after : Option Throwable}
    {events : List Event} (h : StreamInfoCalls info before events after) (hne : after ≠ before) :
    ∃ e ∈ events, e.isFailure = true := by
  cases h with
  | suppressed => exact absurd rfl hne
  | skipped => exact absurd rfl hne
  | notCreated => simp [Event.isFailure]
  | threw => simp [Event.isFailure]
  | delivered => exact absurd rfl hne

theorem MetadataStep.effect {m m' : Machine} {block : Metadata} (h : MetadataStep m block m') :
    ∃ events, Effect m m' events := by
  cases h with
  | ignored => exact ⟨[], .of_context rfl rfl rfl⟩
  | laterLink => exact ⟨[], .of_context rfl rfl rfl⟩
  | mismatch info hchained hcount hshape =>
    refine ⟨[_], ⟨rfl, rfl, fun hunchained => ?_, fun _ => ?_, ?_, ?_⟩⟩
    · rw [hchained] at hunchained
      cases hunchained
    · simp [Event.isFailure]
    · simp [Event.Ordinary, Event.error?, Event.isComplete, Event.returnedPending]
    · simp [Event.isPcm]
  | firstLink info events after hchained hcount hcalls =>
    exact ⟨events, ⟨rfl, rfl, fun _ _ hp => hcalls.pending hp, hcalls.blame,
      fun e he => (hcalls.ordinary e he).1,
      fun e he hpcm => by rw [(hcalls.ordinary e he).2] at hpcm; cases hpcm⟩⟩
  | stored info events after hchained hcalls =>
    exact ⟨events, ⟨rfl, rfl, fun _ _ hp => hcalls.pending hp, hcalls.blame,
      fun e he => (hcalls.ordinary e he).1,
      fun e he hpcm => by rw [(hcalls.ordinary e he).2] at hpcm; cases hpcm⟩⟩

theorem TransportStep.effect {m m' : Machine} (h : TransportStep m m') :
    ∃ events, Effect m m' events := by
  cases h with
  | unchanged => exact ⟨[], .of_context rfl rfl rfl⟩
  | threw exception hnone =>
    exact ⟨[_], .of_internal rfl rfl hnone (by simp [Event.isInternal]) (by simp [Event.isFailure])⟩
  | raised exception hnone =>
    exact ⟨[_], .of_internal rfl rfl hnone (by simp [Event.isInternal]) (by simp [Event.isFailure])⟩

/-- A callback is an error report or has an `Effect`. -/
theorem handle_effect (J : Jvm) (callback : Callback) (m : Machine) (calls : List TransportCall) :
    (∃ status, callback = .error status) ∨
      ∃ events, Effect m (handle J callback (m, calls)).2.1 events := by
  cases callback with
  | error status => exact .inl ⟨status, rfl⟩
  | write frame =>
    obtain ⟨events, heffect⟩ := decodeWriteCallback_effect J frame (m.record (.writeCallback frame))
    exact .inr ⟨_, (Effect.record ⟨rfl, rfl, rfl⟩ rfl).trans heffect⟩
  | metadata block =>
    obtain ⟨events, heffect⟩ :=
      (decodeMetadataCallback_step J block (m.record (.metadataCallback block))).effect
    exact .inr ⟨_, (Effect.record ⟨rfl, rfl, rfl⟩ rfl).trans heffect⟩
  | transport callback => exact .inr (handleTransport_step J callback m calls).effect

/-! ## Reports -/

theorem reportIf_context (condition : Bool) (message : String) (m : Machine) :
    (m.reportIf condition message).context = m.context := by
  unfold Machine.reportIf
  split <;> rfl

theorem reportFailure_context (what : String) (checkMd5 success finished : Bool)
    (state : Option String) (m : Machine) :
    (reportFailure what checkMd5 success finished state m).context = m.context := by
  unfold reportFailure
  simp only [reportIf_context]

theorem reportIf_cases (condition : Bool) (message : String) (m : Machine) :
    m.reportIf condition message = m ∨ m.reportIf condition message = m.report message := by
  unfold Machine.reportIf
  split
  · exact .inr rfl
  · exact .inl rfl

theorem reportIf_adds {P : Event → Prop} (hP : ∀ exception, P (.reported exception))
    (condition : Bool) (message : String) (m : Machine) :
    Adds P m (m.reportIf condition message) := by
  rcases reportIf_cases condition message m with heq | heq
  · rw [heq]
    exact .refl m
  · rw [heq]
    exact .single (report_history _ _) (hP _)

/-- Reporting adds only reports. -/
theorem reportFailure_adds {P : Event → Prop} (hP : ∀ exception, P (.reported exception))
    (what : String) (checkMd5 success finished : Bool) (state : Option String) (m : Machine) :
    Adds P m (reportFailure what checkMd5 success finished state m) := by
  have hstep : ∀ (m' : Machine) (condition : Bool) (message : String), Adds P m m' →
      Adds P m (m'.reportIf condition message) := fun m' condition message hadds =>
    hadds.trans (reportIf_adds hP condition message m')
  exact hstep _ _ _ (hstep _ _ _ (hstep _ _ _ (hstep _ _ _ (.refl m))))

end JFlac.Decode
