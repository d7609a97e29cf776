import JFlac.Decode.Steps

/-!
# What callbacks leave alone

The fields of a decode context that are set up before libFLAC runs callbacks: where it reads from,
who listens, and the requested range. No callback changes them, whatever libFLAC does.
-/

namespace JFlac.Decode

open Machine

variable {D : Type}

/-- The fields that only the setup of an operation writes. -/
structure Setup where
  source : Source
  consumer : Bool
  suppressMetadata : Bool
  decodeChainedOgg : Bool
  rangeLimited : Bool
  maxFrames : ℕ
  firstSample : ℕ
  pullMode : Bool
  pullRequestedFrames : ℕ
  deriving DecidableEq

/-- The setup fields of a context. -/
def DecodeContext.setup (c : DecodeContext) : Setup :=
  { source := c.source, consumer := c.consumer, suppressMetadata := c.suppressMetadata
    decodeChainedOgg := c.decodeChainedOgg, rangeLimited := c.rangeLimited
    maxFrames := c.maxFrames, firstSample := c.firstSample, pullMode := c.pullMode
    pullRequestedFrames := c.pullRequestedFrames }

section Updates

variable (c : DecodeContext)

@[simp] theorem clearDecodePullPending_setup : c.clearDecodePullPending.setup = c.setup := rfl

@[simp] theorem copyOut_setup (offset frames : ℕ) (samples : List Sample) :
    (c.copyOut offset frames samples).setup = c.setup := rfl

@[simp] theorem releaseDrained_setup : c.releaseDrained.setup = c.setup := by
  unfold DecodeContext.releaseDrained
  split <;> rfl

@[simp] theorem stash_setup (frame : Frame) : (c.stash frame).setup = c.setup := rfl

@[simp] theorem completeRange_setup : c.completeRange.setup = c.setup := rfl

@[simp] theorem emit_setup (frames : ℕ) : (c.emit frames).setup = c.setup := rfl

@[simp] theorem captured_setup (info : StreamInfo) : (c.captured info).setup = c.setup := rfl

@[simp] theorem beginLink_setup (info : StreamInfo) (count : ℕ) :
    (c.beginLink info count).setup = c.setup := rfl

@[simp] theorem reportError_setup (status : ErrorStatus) :
    (c.reportError status).setup = c.setup := rfl

end Updates

theorem drainDecodePullPending_setup (m : Machine) :
    (drainDecodePullPending m).2.context.setup = m.context.setup := by
  unfold drainDecodePullPending
  dsimp only
  split
  · exact clearDecodePullPending_setup _
  split
  · exact clearDecodePullPending_setup _
  split
  · rfl
  split
  · rfl
  split
  · rfl
  split
  · rfl
  · rw [withContext_context, releaseDrained_setup, copyOut_setup]

theorem decodeWriteCallback_setup (J : Jvm) (frame : Frame) (m : Machine) :
    (decodeWriteCallback J frame m).2.context.setup = m.context.setup := by
  by_cases hpull : m.context.pullMode = true
  · unfold decodeWriteCallback
    split
    · rfl
    split
    · rfl
    unfold decodePullWriteCallback
    dsimp only
    split
    · rfl
    split
    · rfl
    split
    · rfl
    · rw [drainDecodePullPending_setup, withContext_context, stash_setup]
  · have hstep := decodeWriteCallback_step J frame (by simpa using hpull)
    generalize decodeWriteCallback J frame m = answer at hstep
    obtain ⟨status, m'⟩ := answer
    dsimp only at hstep ⊢
    cases hstep with
    | refused => rfl
    | outside => rfl
    | failed => rfl
    | threw => rfl
    | forwarded => rfl

theorem TransportStep.context {m m' : Machine} (h : TransportStep m m') :
    m'.context = m.context := by
  cases h <;> rfl

/-- No callback changes the setup. -/
theorem handle_setup (J : Jvm) (callback : Callback) (m : Machine) (calls : List TransportCall) :
    (handle J callback (m, calls)).2.1.context.setup = m.context.setup := by
  cases callback with
  | write frame => exact decodeWriteCallback_setup J frame (m.record (.writeCallback frame))
  | error status => rfl
  | transport callback => exact congrArg _ (handleTransport_step J callback m calls).context
  | metadata block =>
    have hstep := decodeMetadataCallback_step J block (m.record (.metadataCallback block))
    show (decodeMetadataCallback J block (m.record (.metadataCallback block))).context.setup =
      (m.record (.metadataCallback block)).context.setup
    generalize decodeMetadataCallback J block (m.record (.metadataCallback block)) = m' at hstep
    cases hstep with
    | ignored => rfl
    | laterLink => rfl
    | mismatch => rfl
    | firstLink => rfl
    | stored => rfl

/-- No libFLAC call does. -/
theorem call_setup (F : LibFlac D) (J : Jvm) (api : Api) (activity : Activity D)
    (calls : List TransportCall) (m : Machine) :
    (F.call J api activity calls m).2.2.context.setup = m.context.setup :=
  Lib.Calls.run_invariant
    (P := fun s : Machine × List TransportCall => s.1.context.setup = m.context.setup)
    (fun callback s hs => (handle_setup J callback s.1 s.2).trans hs) activity rfl

end JFlac.Decode
