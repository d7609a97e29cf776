import JFlac.Encode.Native

/-!
# What may be done with an encoder

libFLAC's encoder API has to be used in an order: an encoder is configured after it was allocated
and before it is initialised, takes samples until it is finished, and is deleted once. The metadata
blocks it was given, the path, the references and the context have to live as long as it may use
them. `Usage` is the automaton of that contract: an event that breaks it has no next state.
-/

namespace JFlac.Encode

open Metadata Metadata.Native

/-! ## The contract -/

/-- How far the life of an encoder has come. -/
inductive Stage where
  | absent
  /-- There is a context. -/
  | allocated
  /-- There is an encoder. -/
  | created
  /-- The encoder is initialised. -/
  | ready
  /-- It could not be initialised. -/
  | failed
  | finished
  /-- The encoder is deleted. -/
  | deleted
  /-- The context is freed. -/
  | freed
  deriving DecidableEq, Repr

/-- There is an encoder that was not deleted. -/
def Stage.hasEncoder : Stage → Bool
  | .created | .ready | .failed | .finished => true
  | _ => false

/-- There is a context, and no encoder that could still use what it holds. -/
def Stage.released : Stage → Bool
  | .allocated | .deleted => true
  | _ => false

/-- What is in use: the path, the references and the blocks that the encoder was given. -/
structure Usage where
  stage : Stage
  path : Bool
  references : ℕ
  blocks : List ℕ
  deriving DecidableEq, Repr

/-- Before an open. -/
def Usage.initial : Usage := ⟨.absent, false, 0, []⟩

/-- The next usage, unless the event breaks the contract. -/
def Usage.step (u : Usage) : Event → Option Usage
  | .mallocPath => if u.stage = .absent ∧ u.path = false then some { u with path := true } else none
  | .freePath => if u.path then some { u with path := false } else none
  | .callocContext => if u.stage = .absent then some { u with stage := .allocated } else none
  | .newGlobalRef =>
    if u.stage = .allocated then some { u with references := u.references + 1 } else none
  | .new => if u.stage = .allocated then some { u with stage := .created } else none
  | .setNumThreads _ | .set _ => if u.stage = .created then some u else none
  | .setMetadata slots _ =>
    if u.stage = .created ∧ u.blocks = [] then some { u with blocks := slots.reduceOption } else none
  | .init output _ success =>
    if u.stage = .created ∧ (if output = .file then u.path = true else 0 < u.references) then
      some { u with stage := if success then .ready else .failed }
    else none
  | .processInterleaved .. => if u.stage = .ready then some u else none
  | .finish _ => if u.stage = .ready then some { u with stage := .finished } else none
  | .delete => if u.stage.hasEncoder then some { u with stage := .deleted } else none
  | .deleteBlocks ids =>
    if u.stage.released then some { u with blocks := u.blocks.filter (· ∉ ids) } else none
  | .deleteGlobalRef =>
    if u.stage.released ∧ 0 < u.references then some { u with references := u.references - 1 }
    else none
  | .freeContext =>
    if u.stage.released ∧ u.references = 0 ∧ u.blocks = [] then some { u with stage := .freed }
    else none

/-- The usage after a record, if no event broke the contract. -/
def Usage.after (events : List Event) : Option Usage := events.foldlM Usage.step Usage.initial

theorem Usage.after_snoc {events : List Event} {u u' : Usage} {event : Event}
    (h : Usage.after events = some u) (hstep : u.step event = some u') :
    Usage.after (events ++ [event]) = some u' := by
  rw [Usage.after] at h ⊢
  rw [List.foldlM_append, h]
  simp [hstep]

/-! ## What callbacks leave alone -/

variable {E : Type} {m m' : Machine E} {u : Usage}

/-- Only a callback's calls, and an exception where none was pending, part the two machines. -/
structure Kept (m m' : Machine E) : Prop where
  trace : m'.env.trace = m.env.trace
  blocks : Keeps m.env m'.env
  pending : ∀ exception, m.env.pending = some exception → m'.env.pending = some exception
  path : m'.path = m.path
  context : m'.context = m.context
  outputStream : m'.outputStream = m.outputStream
  channels : m'.channels = m.channels
  hasEncoder : m'.hasEncoder = m.hasEncoder
  history : m'.history = m.history

theorem Kept.refl (m : Machine E) : Kept m m :=
  ⟨rfl, Keeps.refl _, fun _ => id, rfl, rfl, rfl, rfl, rfl, rfl⟩

theorem Kept.trans {m'' : Machine E} (h : Kept m m') (h' : Kept m' m'') : Kept m m'' where
  trace := h'.trace.trans h.trace
  blocks := h.blocks.trans h'.blocks
  pending exception hp := h'.pending exception (h.pending exception hp)
  path := h'.path.trans h.path
  context := h'.context.trans h.context
  outputStream := h'.outputStream.trans h.outputStream
  channels := h'.channels.trans h.channels
  hasEncoder := h'.hasEncoder.trans h.hasEncoder
  history := h'.history.trans h.history

theorem pending_eq_none (h : ¬ m.env.pending.isSome = true) : m.env.pending = none := by
  simpa using h

theorem Kept.throwNew (h : m.env.pending = none) (exception : Throwable) :
    Kept m (m.throwNew exception) :=
  ⟨rfl, ⟨rfl, rfl, rfl, rfl⟩, fun e he => (by rw [h] at he; cases he), rfl, rfl, rfl, rfl, rfl,
    rfl⟩

theorem kept_callStream (O : Objects) (call : StreamCall) (m : Machine E) :
    Kept m (m.callStream O call).2 := by
  unfold Machine.callStream
  split
  · exact Kept.refl m
  · rename_i hpending
    have hnone := pending_eq_none hpending
    dsimp only
    split
    · exact ⟨rfl, Keeps.refl _, fun _ => id, rfl, rfl, rfl, rfl, rfl, rfl⟩
    · exact ⟨rfl, ⟨rfl, rfl, rfl, rfl⟩, fun e he => (by rw [hnone] at he; cases he), rfl, rfl,
        rfl, rfl, rfl, rfl⟩

/-! A channel callback never replaces a pending exception. -/

/-- The exception that is pending stays. -/
def State.Holds (s s' : State) : Prop :=
  ∀ exception, s.pending = some exception → s'.pending = some exception

theorem State.Holds.of_none {s : State} (h : s.pending = none) (s' : State) : s.Holds s' := by
  intro exception hp
  rw [h] at hp
  cases hp

theorem State.Holds.trans {s s' s'' : State} (h : s.Holds s') (h' : s'.Holds s'') : s.Holds s'' :=
  fun exception hp => h' exception (h exception hp)

theorem holds_callChannel (C : ChannelObject) (call : ChannelCall) (s : State) :
    s.Holds (s.callChannel C call).2 := by
  unfold State.callChannel
  split
  · exact fun _ => id
  · rename_i hpending
    exact State.Holds.of_none (by simpa [State.exceptionCheck] using hpending) _

theorem handleChannel_holds (C : ChannelObject) (context : EncodeContext)
    (callback : ChannelCallback) (s : State) :
    s.Holds (handleChannel C context callback s).2 := by
  cases callback with
  | read bytes =>
    show s.Holds (encodeChannelReadCallback C context bytes s).2
    unfold encodeChannelReadCallback
    repeat' split
    all_goals first
      | exact fun _ => id
      | exact State.Holds.of_none (by simpa [State.exceptionCheck] using ‹¬ s.exceptionCheck = true›)
          _
  | write buffer =>
    show s.Holds (encodeChannelWriteCallback C context (buffer.length + 1) buffer s).2
    unfold encodeChannelWriteCallback
    repeat' split
    all_goals first
      | exact fun _ => id
      | exact State.Holds.of_none (by simpa [State.exceptionCheck] using ‹¬ s.exceptionCheck = true›)
          _
  | seek offset =>
    show s.Holds (encodeChannelSeekCallback C context offset s).2
    unfold encodeChannelSeekCallback
    dsimp only
    split
    · exact fun _ => id
    · have hcall :=
        holds_callChannel C (.setPosition (context.channelBaseOffset + offset)) s
      split <;> · rename_i hs; rw [hs] at hcall; exact hcall
  | tell =>
    show s.Holds (encodeChannelTellCallback C context s).2
    unfold encodeChannelTellCallback
    split
    · exact fun _ => id
    · have hcall := holds_callChannel C .position s
      split
      · rename_i hs
        rw [hs] at hcall
        exact hcall
      · rename_i hs
        rw [hs] at hcall
        split <;> exact hcall

theorem kept_withChannelState {s : State} (h : m.channelState.Holds s) :
    Kept m (m.withChannelState s) :=
  ⟨rfl, ⟨rfl, rfl, rfl, rfl⟩, h, rfl, rfl, rfl, rfl, rfl, rfl⟩

theorem kept_encodeWriteCallback (O : Objects) (buffer : List UInt8) (m : Machine E) :
    Kept m (encodeWriteCallback O buffer m).2 := by
  unfold encodeWriteCallback
  split
  · exact kept_withChannelState (handleChannel_holds O.channel m.context (.write buffer) _)
  split
  · exact Kept.refl m
  split
  · exact Kept.refl m
  rename_i hpending
  split
  · exact Kept.throwNew (pending_eq_none hpending) _
  have hnew := kept_callStream O (.newByteArray buffer.length) m
  split
  · rename_i hcall
    rw [hcall] at hnew
    exact hnew
  · rename_i m₁ hcall
    rw [hcall] at hnew
    have hregion : Kept m₁ (if buffer = [] then (true, m₁) else
        m₁.callStream O (.setByteArrayRegion buffer.length)).2 := by
      split
      · exact Kept.refl m₁
      · exact kept_callStream O _ m₁
    split
    · rename_i hcall
      rw [hcall] at hregion
      exact hnew.trans hregion
    · rename_i m₂ hcall
      rw [hcall] at hregion
      exact (hnew.trans hregion).trans (kept_callStream O _ m₂)

theorem kept_handle (O : Objects) (callback : ChannelCallback) (m : Machine E) :
    Kept m (handle O callback m).2 := by
  cases callback with
  | write buffer => exact kept_encodeWriteCallback O buffer m
  | read bytes =>
    exact kept_withChannelState (handleChannel_holds O.channel m.context (.read bytes) _)
  | seek offset =>
    exact kept_withChannelState (handleChannel_holds O.channel m.context (.seek offset) _)
  | tell => exact kept_withChannelState (handleChannel_holds O.channel m.context .tell _)

/-- Whatever libFLAC does in a call, its callbacks touch nothing that the context owns. -/
theorem kept_perform (O : Objects) (activity : Activity E) (m : Machine E) :
    Kept m (m.perform O activity).2 := by
  have h := activity.run_relation (P := Kept) Kept.refl Kept.trans (kept_handle O) m
  exact ⟨h.trace, h.blocks, h.pending, h.path, h.context, h.outputStream, h.channels, h.hasEncoder,
    h.history⟩

/-! ## Following the contract -/

/-- The record kept the contract, and the machine holds what is in use. -/
structure Follows (m : Machine E) (u : Usage) : Prop where
  history : Usage.after m.history = some u
  path : m.path = u.path
  references : m.outputStream.toNat + m.context.outputChannel.toNat = u.references
  hasEncoder : m.hasEncoder = u.stage.hasEncoder
  blocks : ∀ id ∈ u.blocks, id ∈ m.env.metadataBlocks.reduceOption

theorem Follows.kept (h : Follows m u) (hkept : Kept m m') : Follows m' u where
  history := by rw [hkept.history]; exact h.history
  path := hkept.path.trans h.path
  references := by rw [hkept.outputStream, hkept.context]; exact h.references
  hasEncoder := hkept.hasEncoder.trans h.hasEncoder
  blocks := by rw [hkept.blocks.metadataBlocks]; exact h.blocks

/-- An event that changes nothing the machine holds. -/
theorem Follows.record {u' : Usage} {event : Event} (h : Follows m u)
    (hstep : u.step event = some u') (hpath : u'.path = u.path)
    (hreferences : u'.references = u.references)
    (hencoder : u'.stage.hasEncoder = u.stage.hasEncoder) (hblocks : u'.blocks = u.blocks) :
    Follows (m.record event) u' where
  history := Usage.after_snoc h.history hstep
  path := h.path.trans hpath.symm
  references := h.references.trans hreferences.symm
  hasEncoder := h.hasEncoder.trans hencoder.symm
  blocks := by rw [hblocks]; exact h.blocks

theorem Follows.freePath (h : Follows m u) : Follows m.freePath { u with path := false } := by
  unfold Machine.freePath
  split
  · rename_i hpath
    have hstep : u.step .freePath = some { u with path := false } := by
      rw [Usage.step, if_pos (h.path.symm.trans hpath)]
    exact ⟨Usage.after_snoc h.history hstep, rfl, h.references, h.hasEncoder, h.blocks⟩
  · rename_i hpath
    have hfalse : u.path = false := by rw [← h.path]; simpa using hpath
    have hu : { u with path := false } = u := by rw [← hfalse]
    rw [hu]
    exact h

theorem Follows.throwNew (h : Follows m u) (exception : Throwable) :
    Follows (m.throwNew exception) u :=
  ⟨h.history, h.path, h.references, h.hasEncoder, h.blocks⟩

theorem Follows.report (h : Follows m u) (failure : Failure) : Follows (m.report failure) u := by
  cases failure with
  | raised => exact h
  | throws exception => exact h.throwNew exception
  | throwsUnlessPending exception =>
    unfold Machine.report
    dsimp only
    split
    · exact h
    · exact h.throwNew exception

/-! ## Destroying -/

/-- A context that can be destroyed. -/
def Stage.destroyable : Stage → Bool
  | .absent | .freed => false
  | _ => true

theorem Follows.deleteEncoder (h : Follows m u) (hstage : u.stage.destroyable = true) (F : LibFlac E)
    (O : Objects) : ∃ stage : Stage, stage.released = true ∧
      Follows (m.deleteEncoder F O) { u with stage := stage } := by
  unfold Machine.deleteEncoder
  split
  · rename_i hencoder
    have hkept := kept_perform O (F.delete m.encoder) m
    have hafter := h.kept hkept
    refine ⟨.deleted, rfl, Usage.after_snoc hafter.history ?_, hafter.path, hafter.references, rfl,
      hafter.blocks⟩
    rw [Usage.step, if_pos (h.hasEncoder.symm.trans hencoder)]
  · rename_i hencoder
    have hnone : u.stage.hasEncoder = false := by rw [← h.hasEncoder]; simpa using hencoder
    refine ⟨u.stage, ?_, h⟩
    cases hs : u.stage <;> simp_all [Stage.destroyable, Stage.hasEncoder, Stage.released]

theorem Follows.destroyMetadataBlocks (h : Follows m u) (hstage : u.stage.released = true) :
    Follows m.destroyMetadataBlocks { u with blocks := [] } := by
  have hfilter : u.blocks.filter (· ∉ m.env.metadataBlocks.reduceOption) = [] := by
    rw [List.filter_eq_nil_iff]
    intro id hid
    simpa using h.blocks id hid
  have hstep : u.step (.deleteBlocks m.env.metadataBlocks.reduceOption) =
      some { u with blocks := [] } := by
    rw [Usage.step, if_pos hstage, hfilter]
  exact ⟨Usage.after_snoc h.history hstep, h.path, h.references, h.hasEncoder, by simp⟩

theorem Follows.deleteStream (h : Follows m u) (hstage : u.stage.released = true) :
    Follows m.deleteStream { u with references := m.context.outputChannel.toNat } := by
  have hreferences := h.references
  unfold Machine.deleteStream
  split
  · rename_i hstream
    rw [hstream, Bool.toNat_true] at hreferences
    have hstep : u.step .deleteGlobalRef =
        some { u with references := m.context.outputChannel.toNat } := by
      rw [Usage.step, if_pos ⟨hstage, by omega⟩]
      simp only [← hreferences, Nat.add_sub_cancel_left]
    exact ⟨Usage.after_snoc h.history hstep, h.path, Nat.zero_add _, h.hasEncoder, h.blocks⟩
  · rename_i hstream
    have hfalse : m.outputStream = false := by simpa using hstream
    refine ⟨?_, h.path, by rw [hfalse]; exact Nat.zero_add _, h.hasEncoder, h.blocks⟩
    rw [hfalse, Bool.toNat_false, Nat.zero_add] at hreferences
    rw [hreferences]
    exact h.history

theorem Follows.deleteChannel (h : Follows m u) (hstage : u.stage.released = true)
    (hstream : m.outputStream = false) : Follows m.deleteChannel { u with references := 0 } := by
  have hreferences := h.references
  rw [hstream, Bool.toNat_false, Nat.zero_add] at hreferences
  unfold Machine.deleteChannel
  split
  · rename_i hchannel
    rw [hchannel, Bool.toNat_true] at hreferences
    have hstep : u.step .deleteGlobalRef = some { u with references := 0 } := by
      rw [Usage.step, if_pos ⟨hstage, by omega⟩]
      simp only [← hreferences, Nat.sub_self]
    refine ⟨Usage.after_snoc h.history hstep, h.path, ?_, h.hasEncoder, h.blocks⟩
    show m.outputStream.toNat + false.toNat = 0
    rw [hstream]
    rfl
  · rename_i hchannel
    have hfalse : m.context.outputChannel = false := by simpa using hchannel
    rw [hfalse, Bool.toNat_false] at hreferences
    refine ⟨?_, h.path, by rw [hstream, hfalse]; rfl, h.hasEncoder, h.blocks⟩
    rw [hreferences]
    exact h.history

theorem outputStream_deleteStream (m : Machine E) : m.deleteStream.outputStream = false := by
  unfold Machine.deleteStream
  split
  · rfl
  · rename_i hstream
    simpa using hstream

/-- Destroying a context ends its life within the contract: the encoder goes before the blocks it
was given, and the context goes last. -/
theorem Follows.destroy (h : Follows m u) (hstage : u.stage.destroyable = true) (F : LibFlac E)
    (O : Objects) : Follows (destroyEncodeContext F O m) ⟨.freed, u.path, 0, []⟩ := by
  obtain ⟨stage, hreleased, hdeleted⟩ := h.deleteEncoder hstage F O
  have hblocks := hdeleted.destroyMetadataBlocks hreleased
  have hstream := hblocks.deleteStream hreleased
  have hchannel := hstream.deleteChannel hreleased (outputStream_deleteStream _)
  have hencoder : stage.hasEncoder = false := by
    cases stage <;> simp_all [Stage.released, Stage.hasEncoder]
  refine hchannel.record ?_ rfl rfl hencoder.symm rfl
  rw [Usage.step, if_pos ⟨hreleased, rfl, rfl⟩]

/-! ## Blocks -/

theorem Kept.owned (h : Kept m m') (howned : Owned m.env) : Owned m'.env := howned.keeps h.blocks

/-- What a context has built is deleted with it, and all of it exactly once. -/
structure Emptied (m : Machine E) : Prop where
  slots : m.env.metadataBlocks = []
  deleted : m.env.deleted.Perm (List.range m.env.created.length)

theorem owned_deleteEncoder (h : Owned m.env) (F : LibFlac E) (O : Objects) :
    Owned (m.deleteEncoder F O).env := by
  unfold Machine.deleteEncoder
  split
  · exact (kept_perform O (F.delete m.encoder) m).owned h
  · exact h

theorem emptied_destroyMetadataBlocks (h : Owned m.env) : Emptied m.destroyMetadataBlocks := by
  refine ⟨rfl, ?_⟩
  have hcustody := h.destroy.custody
  rwa [show m.env.destroyMetadataBlocks.metadataBlocks.reduceOption = [] from rfl,
    List.nil_append] at hcustody

theorem deleteStream_env (m : Machine E) : m.deleteStream.env = m.env := by
  unfold Machine.deleteStream
  split <;> rfl

theorem deleteChannel_env (m : Machine E) : m.deleteChannel.env = m.env := by
  unfold Machine.deleteChannel
  split <;> rfl

theorem destroy_env (F : LibFlac E) (O : Objects) (m : Machine E) :
    (destroyEncodeContext F O m).env = (m.deleteEncoder F O).destroyMetadataBlocks.env := by
  rw [destroyEncodeContext]
  show Machine.env (Machine.deleteChannel _) = _
  rw [deleteChannel_env, deleteStream_env]

theorem emptied_destroy (h : Owned m.env) (F : LibFlac E) (O : Objects) :
    Emptied (destroyEncodeContext F O m) := by
  have hdestroyed := emptied_destroyMetadataBlocks (owned_deleteEncoder h F O)
  refine ⟨?_, ?_⟩
  · rw [destroy_env]
    exact hdestroyed.slots
  · rw [destroy_env]
    exact hdestroyed.deleted

/-- An exception that is pending stays pending. -/
theorem pending_destroy (F : LibFlac E) (O : Objects) {exception : Throwable}
    (h : m.env.pending = some exception) :
    (destroyEncodeContext F O m).env.pending = some exception := by
  rw [destroy_env]
  show (m.deleteEncoder F O).env.pending = some exception
  unfold Machine.deleteEncoder
  split
  · exact (kept_perform O (F.delete m.encoder) m).pending exception h
  · exact h

end JFlac.Encode
