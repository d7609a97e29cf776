import JFlac.Encode.Usage

/-!
# Opening an encoder is all or nothing

An open either leaves an initialised encoder that was configured with exactly what the request says,
with its metadata blocks alive, or it gives everything back that it has taken. What an open does is
followed part by part: every part either goes on with one more piece of the record, or breaks off
at a context that can be destroyed.
-/

namespace JFlac.Encode

open Metadata Metadata.Native

variable {E : Type} {F : LibFlac E} {lib : LibFlacMetadata} {O : Objects} {P : Platform}
  {m m' : Machine E} {u : Usage} {output : Output} {request : NativeEncodingRequest}

/-! ## Steps -/

/-- A step that raises when it fails. -/
def StepRaises : Step → Prop
  | .jni _ => True
  | .native _ _ => False
  | .check result => ∀ exception, result = .error exception → exception.isSome

/-- Steps that fail leave an exception, except where one of them does not raise. -/
theorem pending_of_runSteps {Q : Prop} {faults : Faults} {steps : List Step} {s t : Context}
    (hsteps : ∀ step ∈ steps, StepRaises step ∨ Q)
    (h : Native.runSteps faults steps s = (false, t)) : t.pending.isSome ∨ Q := by
  induction steps generalizing s with
  | nil => simp [Native.runSteps] at h
  | cons step steps ih =>
    rw [List.forall_mem_cons] at hsteps
    obtain ⟨hstep, hrest⟩ := hsteps
    unfold Native.runSteps at h
    split at h
    · exact ih hrest h
    · rename_i u hu
      simp only [Prod.mk.injEq, true_and] at h
      subst h
      refine hstep.imp_left fun hraises => ?_
      cases step with
      | jni call => exact isSome_pending_of_jni hu
      | native call accepts => exact hraises.elim
      | check result =>
        unfold Context.step at hu
        split at hu
        · simp at hu
        · rename_i exception hrun
          simp only [Prod.mk.injEq, true_and] at hu
          obtain ⟨e, rfl⟩ := Option.isSome_iff_exists.mp (hraises exception hrun)
          rw [← hu]
          rfl

theorem runSteps_eq {faults : Faults} {steps : List Step} {b : Bool}
    (h : m.runSteps faults steps = (b, m')) :
    ∃ env, Native.runSteps faults steps m.env = (b, env) ∧ m' = { m with env := env } := by
  rcases hr : Native.runSteps faults steps m.env with ⟨c, env⟩
  rw [Machine.runSteps, hr] at h
  obtain ⟨rfl, rfl⟩ := Prod.mk.inj h
  exact ⟨env, rfl, rfl⟩

theorem Follows.env (h : Follows m u) {env : Context} (hkeeps : Keeps m.env env) :
    Follows { m with env := env } u :=
  ⟨h.history, h.path, h.references, h.hasEncoder, by
    show ∀ id ∈ u.blocks, id ∈ env.metadataBlocks.reduceOption
    rw [hkeeps.metadataBlocks]
    exact h.blocks⟩

/-- Blocks that were built stay as they are when only the pending exception changes. -/
theorem Kept.filled (h : Kept m m') {natives : List StreamMetadata} {free : ℕ}
    (hfilled : Filled natives free m.env) : Filled natives free m'.env :=
  hfilled.succeeds ⟨h.blocks, fun hclean => by rw [Context.Clean, h.trace]; exact hclean⟩

/-! ## Parts of an open -/

/-- An open that breaks off can be undone, and whoever called it is told why, unless `NewGlobalRef`
failed without an exception. -/
structure Broken (P : Platform) (failure : Failure) (m : Machine E) : Prop where
  follows : ∃ u : Usage, Follows m u ∧ u.stage.destroyable = true
  owned : Owned m.env
  reported : failure = .raised → m.env.pending.isSome ∨ P.newGlobalRef = .error none

/-- What a part of an open leaves. -/
def Outcome (P : Platform) (Q : Machine E → Prop) (r : Option Failure × Machine E) : Prop :=
  r.1.elim (Q r.2) fun failure => Broken P failure r.2

theorem Outcome.imp {Q Q' : Machine E → Prop} {r : Option Failure × Machine E}
    (hr : Outcome P Q r) (h : ∀ m, Q m → Q' m) : Outcome P Q' r := by
  rcases r with ⟨_ | failure, m⟩
  · exact h m hr
  · exact hr

theorem Outcome.andThen {Q Q' : Machine E → Prop} {r : Option Failure × Machine E}
    {f : Machine E → Option Failure × Machine E} (hr : Outcome P Q r)
    (hf : ∀ m, Q m → Outcome P Q' (f m)) : Outcome P Q' (andThen r f) := by
  rcases r with ⟨_ | failure, m⟩
  · exact hf m hr
  · exact hr

/-- An open in progress: the usage, the blocks built so far, the record and the output. -/
structure Opening (usage : Usage) (natives : List StreamMetadata) (events : List Event)
    (output : Option Output) (channels : ℕ) (m : Machine E) : Prop where
  follows : Follows m usage
  filled : Filled natives 0 m.env
  history : m.history = events
  stream : m.outputStream = decide (output = some .outputStream)
  channel : m.context.outputChannel = decide (output = some .seekableChannel)
  base : 0 ≤ m.context.channelBaseOffset
  channels : m.channels = channels

section parts
variable {usage : Usage} {natives : List StreamMetadata} {events : List Event} {held : Option Output}
  {channels : ℕ}

/-- A failure of the open after which the context is as before. -/
theorem Opening.broken (h : Opening usage natives events held channels m)
    (hstage : usage.stage.destroyable = true) {failure : Failure} (hfailure : failure ≠ .raised) :
    Broken P failure m :=
  ⟨⟨usage, h.follows, hstage⟩, h.filled.owned, fun heq => absurd heq hfailure⟩

/-- Steps of the environment. -/
theorem Opening.steps (h : Opening usage natives events held channels m) {env : Context}
    (hsucceeds : Succeeds m.env env) :
    Opening usage natives events held channels { m with env := env } :=
  ⟨h.follows.env hsucceeds.toKeeps, h.filled.succeeds hsucceeds, h.history, h.stream, h.channel,
    h.base, h.channels⟩

/-- Steps that fail, with a reason when they do not raise. -/
theorem Opening.brokenSteps (h : Opening usage natives events held channels m)
    (hstage : usage.stage.destroyable = true) {steps : List Step}
    (hsteps : ∀ step ∈ steps, StepRaises step ∨ P.newGlobalRef = .error none) {env : Context}
    (henv : Native.runSteps P.faults steps m.env = (false, env)) :
    Broken P .raised { m with env := env } where
  follows := ⟨usage, h.follows.env (keeps_runSteps henv), hstage⟩
  owned := h.filled.owned.keeps (keeps_runSteps henv)
  reported _ := pending_of_runSteps hsteps henv

/-- The state of the encoder changes, and the call is recorded. -/
theorem Opening.recordCall (h : Opening usage natives events held channels m) (encoder : E)
    (event : Event) (hstep : usage.step event = some usage) :
    Opening usage natives (events ++ [event]) held channels
      ({ m with encoder := encoder }.record event) where
  follows :=
    Follows.record (m := { m with encoder := encoder })
      ⟨h.follows.history, h.follows.path, h.follows.references, h.follows.hasEncoder,
        h.follows.blocks⟩ hstep rfl rfl rfl rfl
  filled := h.filled
  history := congrArg (· ++ [event]) h.history
  stream := h.stream
  channel := h.channel
  base := h.base
  channels := h.channels

end parts

/-! ## The output -/

theorem raises_javaVM (P : Platform) (message : String) (Q : Prop) :
    StepRaises (.check (P.javaVM message)) ∨ Q := by
  left
  intro exception h
  rw [Platform.javaVM] at h
  split at h
  · simp at h
  · rw [← Except.error.inj h]
    rfl

theorem raises_newGlobalRef (P : Platform) :
    StepRaises (.check P.newGlobalRef) ∨ P.newGlobalRef = .error none := by
  by_cases h : P.newGlobalRef = .error none
  · exact .inr h
  · left
    intro exception hexception
    cases exception with
    | none => exact absurd hexception h
    | some exception => rfl

theorem raises_methodIDs {names : List String} {Q : Prop} :
    ∀ step ∈ methodIDs names, StepRaises step ∨ Q := by
  intro step hstep
  obtain ⟨name, -, rfl⟩ := List.mem_map.mp hstep
  exact .inl trivial

theorem raises_getters {names : List String} {Q : Prop} :
    ∀ step ∈ getters names, StepRaises step ∨ Q := by
  intro step hstep
  obtain ⟨name, -, rfl⟩ := List.mem_map.mp hstep
  exact .inl trivial

/-- The events of the reference to the output. -/
def referenceEvents : Output → List Event
  | .file => []
  | .outputStream | .seekableChannel => [.newGlobalRef]

/-- How many references an output takes. -/
def Output.references : Output → ℕ
  | .file => 0
  | .outputStream | .seekableChannel => 1

section output
variable {events : List Event} {path : Bool} {channels : ℕ}

/-- A reference to the output is held from now on. -/
theorem Follows.newGlobalRef (h : Follows m ⟨.allocated, path, 0, []⟩) (m' : Machine E)
    (hpath : m'.path = m.path) (hencoder : m'.hasEncoder = m.hasEncoder)
    (hhistory : m'.history = m.history)
    (hreferences : m'.outputStream.toNat + m'.context.outputChannel.toNat = 1) :
    Follows (m'.record .newGlobalRef) ⟨.allocated, path, 1, []⟩ where
  history := by
    show Usage.after (m'.history ++ [.newGlobalRef]) = _
    rw [hhistory]
    exact Usage.after_snoc h.history rfl
  path := hpath.trans h.path
  references := hreferences
  hasEncoder := hencoder.trans h.hasEncoder
  blocks := by simp

/-- A step of the preparation raises when it fails, except for `NewGlobalRef`. -/
theorem raises_streamSteps (P : Platform) :
    ∀ step ∈ streamSteps P, StepRaises step ∨ P.newGlobalRef = .error none := by
  intro step hstep
  rw [streamSteps, List.mem_append] at hstep
  rcases hstep with hstep | hstep
  · exact raises_methodIDs step hstep
  · simp only [List.mem_cons, List.not_mem_nil, or_false] at hstep
    rcases hstep with rfl | rfl
    · exact raises_javaVM P _ _
    · exact raises_newGlobalRef P

theorem raises_channelSteps (P : Platform) :
    ∀ step ∈ channelSteps P, StepRaises step ∨ P.newGlobalRef = .error none := by
  intro step hstep
  rw [channelSteps, List.mem_append, List.mem_append] at hstep
  rcases hstep with (hstep | hstep) | hstep
  · simp only [List.mem_cons, List.not_mem_nil, or_false] at hstep
    rcases hstep with rfl | rfl | rfl <;> exact .inl trivial
  · exact raises_methodIDs step hstep
  · simp only [List.mem_cons, List.not_mem_nil, or_false] at hstep
    rcases hstep with rfl | rfl
    · exact raises_javaVM P _ _
    · exact raises_newGlobalRef P

theorem outcome_prepareEncodeOutputStream
    (h : Opening ⟨.allocated, path, 0, []⟩ [] events none channels m) :
    Outcome P (Opening ⟨.allocated, path, 1, []⟩ [] (events ++ [.newGlobalRef])
      (some .outputStream) channels) (prepareEncodeOutputStream P m) := by
  unfold prepareEncodeOutputStream
  rcases hr : m.runSteps P.faults (streamSteps P) with ⟨_ | _, m'⟩
  · obtain ⟨env, henv, rfl⟩ := runSteps_eq hr
    exact h.brokenSteps rfl (raises_streamSteps P) henv
  · obtain ⟨env, henv, rfl⟩ := runSteps_eq hr
    have hopening := h.steps (runSteps_succeeds henv).2
    have hchannel : m.context.outputChannel = false := h.channel
    refine ⟨hopening.follows.newGlobalRef { m with env := env, outputStream := true } rfl rfl rfl
      ?_, hopening.filled, congrArg (· ++ [Event.newGlobalRef]) h.history, rfl, hchannel, h.base,
      h.channels⟩
    show 1 + m.context.outputChannel.toNat = 1
    rw [hchannel]
    rfl

theorem outcome_referToChannel
    (h : Opening ⟨.allocated, path, 0, []⟩ [] events none channels m) :
    Outcome P (Opening ⟨.allocated, path, 1, []⟩ [] (events ++ [.newGlobalRef])
      (some .seekableChannel) channels) (referToChannel P m) := by
  unfold referToChannel
  rcases hr : m.runSteps P.faults (channelSteps P) with ⟨_ | _, m'⟩
  · obtain ⟨env, henv, rfl⟩ := runSteps_eq hr
    exact h.brokenSteps rfl (raises_channelSteps P) henv
  · obtain ⟨env, henv, rfl⟩ := runSteps_eq hr
    have hopening := h.steps (runSteps_succeeds henv).2
    have hstream : m.outputStream = false := h.stream
    refine ⟨hopening.follows.newGlobalRef { m with env := env, context := ⟨true, 0⟩ } rfl rfl rfl
      ?_, hopening.filled, congrArg (· ++ [Event.newGlobalRef]) h.history, hstream, rfl,
      Int.le_refl 0, h.channels⟩
    show m.outputStream.toNat + 1 = 1
    rw [hstream]
    rfl

/-- A call that gave no value left an exception. -/
theorem pending_of_callChannel {C : ChannelObject} {call : ChannelCall} {s s' : State}
    (h : s.callChannel C call = (none, s')) : s'.pending.isSome := by
  unfold State.callChannel at h
  split at h
  · rename_i hpending
    rw [← (Prod.mk.inj h).2]
    exact hpending
  · split at h
    · simp at h
    · rw [← (Prod.mk.inj h).2]
      rfl

theorem outcome_captureBaseOffset
    (h : Opening ⟨.allocated, path, 1, []⟩ [] events (some .seekableChannel) channels m) :
    Outcome P (Opening ⟨.allocated, path, 1, []⟩ [] events (some .seekableChannel) channels)
      (captureBaseOffset O m) := by
  unfold captureBaseOffset
  have hholds := holds_callChannel O.channel .position m.channelState
  rcases hcall : m.channelState.callChannel O.channel .position with ⟨_ | position, s⟩
  · rw [hcall] at hholds
    have hkept := kept_withChannelState hholds
    exact ⟨⟨_, h.follows.kept hkept, rfl⟩, hkept.owned h.filled.owned,
      fun _ => .inl (pending_of_callChannel hcall)⟩
  · rw [hcall] at hholds
    have hkept := kept_withChannelState hholds
    have hfollows := h.follows.kept hkept
    have hchannel : m.context.outputChannel = true := h.channel
    have hnew : Follows { m.withChannelState s with context := ⟨true, position.value⟩ }
        ⟨.allocated, path, 1, []⟩ := by
      refine ⟨hfollows.history, hfollows.path, ?_, hfollows.hasEncoder, hfollows.blocks⟩
      have hreferences := hfollows.references
      rw [hkept.context, hchannel] at hreferences
      exact hreferences
    dsimp only
    split
    · exact ⟨⟨_, hnew, rfl⟩, hkept.owned h.filled.owned, by simp⟩
    · rename_i hnonneg
      exact ⟨hnew, hkept.filled h.filled, h.history, h.stream, rfl, not_lt.mp hnonneg, h.channels⟩

theorem outcome_prepareOutput (O : Objects) (output : Output)
    (h : Opening ⟨.allocated, path, 0, []⟩ [] events none channels m) :
    Outcome P (Opening ⟨.allocated, path, output.references, []⟩ []
      (events ++ referenceEvents output) (some output) channels) (prepareOutput O P output m) := by
  cases output with
  | file =>
    refine ⟨h.follows, h.filled, ?_, h.stream, h.channel, h.base, h.channels⟩
    rw [referenceEvents, List.append_nil]
    exact h.history
  | outputStream => exact outcome_prepareEncodeOutputStream h
  | seekableChannel =>
    exact (outcome_referToChannel h).andThen fun m hm => outcome_captureBaseOffset hm

end output

/-! ## The encoder -/

/-- The events of the thread count. -/
def threadEvents (numThreads : ℤ) : List Event :=
  if numThreads = 1 then [] else [.setNumThreads (toUint32 numThreads)]

section encoder
variable {events : List Event} {path : Bool} {references : ℕ} {held : Option Output} {channels : ℕ}

theorem outcome_newEncoder (F : LibFlac E)
    (h : Opening ⟨.allocated, path, references, []⟩ [] events held channels m) :
    Outcome P (Opening ⟨.created, path, references, []⟩ [] (events ++ [.new]) held channels)
      (newEncoder F P m) := by
  unfold newEncoder
  split
  · exact ⟨⟨Usage.after_snoc h.follows.history rfl, h.follows.path, h.follows.references, rfl,
      h.follows.blocks⟩, h.filled, congrArg (· ++ [Event.new]) h.history, h.stream, h.channel, h.base,
      h.channels⟩
  · exact h.broken rfl (by simp)

theorem threadFailure_ne_raised {status : ThreadStatus} {failure : Failure}
    (h : threadFailure P status = some failure) : failure ≠ .raised := by
  cases status <;> simp [threadFailure] at h <;> subst h <;> simp

theorem outcome_configureThreads (numThreads : ℤ)
    (h : Opening ⟨.created, path, references, []⟩ [] events held channels m) :
    Outcome P (Opening ⟨.created, path, references, []⟩ [] (events ++ threadEvents numThreads) held
      channels) (configureThreads F P numThreads m) := by
  unfold configureThreads threadEvents
  split
  · rwa [List.append_nil]
  · have hcall := h.recordCall (F.setNumThreads (toUint32 numThreads) m.encoder).2
      (.setNumThreads (toUint32 numThreads)) rfl
    dsimp only
    cases hstatus : threadFailure P (F.setNumThreads (toUint32 numThreads) m.encoder).1 with
    | none => exact hcall
    | some failure => exact hcall.broken rfl (threadFailure_ne_raised hstatus)

/-- The setter chain, on the way through or behind the setter that stopped it. -/
theorem opening_applySettings {settings : List Setting} {m m' : Machine E} {b : Bool}
    {events : List Event} (h : Opening ⟨.created, path, references, []⟩ [] events held channels m)
    (happly : applySettings F settings m = (b, m')) :
    ∃ done, (b = true → done = settings) ∧
      Opening ⟨.created, path, references, []⟩ [] (events ++ done.map .set) held channels m' := by
  induction settings generalizing m events with
  | nil =>
    obtain ⟨rfl, rfl⟩ := Prod.mk.inj happly
    exact ⟨[], fun _ => rfl, by rwa [List.map_nil, List.append_nil]⟩
  | cons setting settings ih =>
    have hcall := h.recordCall (F.set setting m.encoder).2 (.set setting) rfl
    unfold applySettings at happly
    dsimp only at happly
    split at happly
    · obtain ⟨done, hdone, hopening⟩ := ih hcall happly
      refine ⟨setting :: done, fun hb => by rw [hdone hb], ?_⟩
      rwa [List.append_assoc] at hopening
    · obtain ⟨rfl, rfl⟩ := Prod.mk.inj happly
      exact ⟨[setting], by simp, hcall⟩

theorem outcome_configure (request : NativeEncodingRequest)
    (h : Opening ⟨.created, path, references, []⟩ [] events held channels m) :
    Outcome P (Opening ⟨.created, path, references, []⟩ []
      (events ++ request.settings.map .set) held channels) (configure F request m) := by
  unfold configure
  rcases happly : applySettings F request.settings m with ⟨_ | _, m'⟩
  · obtain ⟨done, -, hopening⟩ := opening_applySettings h happly
    exact hopening.broken rfl (by simp)
  · obtain ⟨done, hdone, hopening⟩ := opening_applySettings h happly
    rw [hdone rfl] at hopening
    exact hopening

/-! ## Metadata -/

/-- The event of the metadata blocks, if there are any. -/
def attachEvents (natives : List StreamMetadata) : List Event :=
  if natives = [] then []
  else [.setMetadata ((List.range natives.length).map some) (natives.map some)]

/-- Building blocks touches nothing that was given to the encoder before. -/
theorem outcome_buildMetadata (lib : LibFlacMetadata) (metadata : FlacEncodingMetadata)
    (h : Opening ⟨.created, path, references, []⟩ [] events held channels m) :
    Outcome P (fun m => ∃ natives, buildBlocks lib metadata = .ok (natives.map some) ∧
      Opening ⟨.created, path, references, []⟩ natives events held channels m)
      (buildMetadata lib P metadata m) := by
  have hbuilds := buildRequest_builds P.faults lib metadata h.filled
  have hfollows : ∀ env : Context,
      Follows { m with env := env } ⟨.created, path, references, []⟩ := fun env =>
    ⟨h.follows.history, h.follows.path, h.follows.references, h.follows.hasEncoder, by simp⟩
  unfold buildMetadata
  rcases hbuild : Native.buildRequest P.faults lib metadata m.env with ⟨_ | _, env⟩
  · rw [hbuild] at hbuilds
    exact ⟨⟨_, hfollows env, rfl⟩, hbuilds, by simp⟩
  · rw [hbuild] at hbuilds
    obtain ⟨natives, hnatives, hfilled⟩ := hbuilds
    exact ⟨natives, hnatives, hfollows env, hfilled, h.history, h.stream, h.channel, h.base,
      h.channels⟩

/-- The slots of a full table. -/
theorem Filled.slots {natives : List StreamMetadata} {s : Context} (h : Filled natives 0 s) :
    s.metadataBlocks = (List.range natives.length).map some := by
  rw [h.metadataBlocks, List.replicate_zero, List.append_nil]

/-- libFLAC is given what was built, in the order of the slots. -/
theorem Filled.blocks {natives : List StreamMetadata} {s : Context} (h : Filled natives 0 s) :
    (s.metadataBlocks.map fun slot => slot.bind s.block) = natives.map some := by
  rw [Filled.slots h, List.map_map]
  refine List.ext_getElem (by simp) fun i hi hi' => ?_
  have hlt : i < natives.length := by simpa using hi'
  simp [Context.block, h.created, hlt]

theorem outcome_attachMetadata {natives : List StreamMetadata}
    (h : Opening ⟨.created, path, references, []⟩ natives events held channels m) :
    Outcome P (Opening ⟨.created, path, references, List.range natives.length⟩ natives
      (events ++ attachEvents natives) held channels) (attachMetadata F m) := by
  have hslots := Filled.slots h.filled
  unfold attachMetadata attachEvents
  by_cases hnatives : natives = []
  · subst hnatives
    rw [if_pos (show m.env.metadataBlocks = [] from hslots), if_pos rfl, List.append_nil]
    exact h
  · have hne : m.env.metadataBlocks ≠ [] := by
      rw [hslots]
      simpa using hnatives
    rw [if_neg hne, if_neg hnatives]
    dsimp only
    rw [Filled.blocks h.filled, hslots]
    have hids : ((List.range natives.length).map some).reduceOption =
        List.range natives.length := by
      simpa using reduceOption_slots (List.range natives.length) 0
    have hstep : (⟨.created, path, references, []⟩ : Usage).step
        (.setMetadata ((List.range natives.length).map some) (natives.map some)) =
          some ⟨.created, path, references, List.range natives.length⟩ := by
      rw [Usage.step, if_pos ⟨rfl, rfl⟩, hids]
    have hattached : ∀ encoder : E,
        Opening ⟨.created, path, references, List.range natives.length⟩ natives
          (events ++ [.setMetadata ((List.range natives.length).map some) (natives.map some)]) held
          channels ({ m with encoder := encoder }.record
            (.setMetadata ((List.range natives.length).map some) (natives.map some))) := by
      intro encoder
      refine ⟨⟨Usage.after_snoc h.follows.history hstep, h.follows.path, h.follows.references,
        h.follows.hasEncoder, ?_⟩, h.filled, congrArg (· ++ [_]) h.history, h.stream, h.channel,
        h.base, h.channels⟩
      show ∀ id ∈ List.range natives.length, id ∈ m.env.metadataBlocks.reduceOption
      rw [hslots, hids]
      exact fun _ => id
    split
    · exact hattached _
    · exact (hattached _).broken rfl (by simp)

end encoder

/-! ## Initialising -/

/-- The events of the path. -/
def pathEvents : Output → List Event
  | .file => [.mallocPath]
  | .outputStream | .seekableChannel => []

/-- The path is freed behind the initialisation. -/
def freeEvents : Output → List Event
  | .file => [.freePath]
  | .outputStream | .seekableChannel => []

/-- Only a file has a path. -/
def Output.path : Output → Bool
  | .file => true
  | .outputStream | .seekableChannel => false

theorem freePath_history (h : m.path = output.path) :
    m.freePath.history = m.history ++ freeEvents output := by
  unfold Machine.freePath
  cases output with
  | file =>
    rw [if_pos (show m.path = true from h)]
    rfl
  | outputStream =>
    rw [if_neg (by rw [h]; exact Bool.false_ne_true)]
    exact (List.append_nil _).symm
  | seekableChannel =>
    rw [if_neg (by rw [h]; exact Bool.false_ne_true)]
    exact (List.append_nil _).symm

/-- `free` touches nothing but the path. -/
theorem freePath_frame (m : Machine E) : m.freePath =
    { m with path := false, history := m.freePath.history } := by
  unfold Machine.freePath
  split
  · rfl
  · rename_i hpath
    obtain ⟨env, path, context, outputStream, channels, hasEncoder, encoder, streamCalls,
      channelCalls, history⟩ := m
    obtain rfl : path = false := by simpa using hpath
    rfl

theorem outcome_initEncoder {natives : List StreamMetadata} {events : List Event} {channels : ℕ}
    {container : ℤ}
    (h : Opening ⟨.created, output.path, output.references, List.range natives.length⟩ natives events
      (some output) channels m) :
    Outcome P (Opening ⟨.ready, false, output.references, List.range natives.length⟩ natives
      (events ++ [.init output container true] ++ freeEvents output) (some output) channels)
      (initEncoder F O output container m) := by
  unfold initEncoder
  have hkept := kept_perform O (F.init output container m.encoder) m
  have hfollows := h.follows.kept hkept
  have hfilled := hkept.filled h.filled
  rcases hperform : m.perform O (F.init output container m.encoder) with ⟨success, m₁⟩
  rw [hperform] at hkept hfollows hfilled
  dsimp only
  have hhistory : m₁.history = events := hkept.history.trans h.history
  have hpath : (m₁.record (.init output container success)).path = output.path :=
    hkept.path.trans h.follows.path
  have hstep : (⟨.created, output.path, output.references, List.range natives.length⟩ :
      Usage).step (.init output container success) = some ⟨if success then .ready else .failed,
        output.path, output.references, List.range natives.length⟩ := by
    cases output <;> rfl
  have hinit : Follows (m₁.record (.init output container success))
      ⟨if success then .ready else .failed, output.path, output.references,
        List.range natives.length⟩ := by
    refine hfollows.record hstep rfl rfl ?_ rfl
    cases success <;> rfl
  have hfreed := hinit.freePath
  have hframe := freePath_frame (m₁.record (.init output container success))
  have hevents := freePath_history hpath
  cases success with
  | false =>
    refine ⟨⟨_, hfreed, rfl⟩, ?_, by simp⟩
    show Owned (m₁.record (.init output container false)).freePath.env
    rw [hframe]
    exact hfilled.owned
  | true =>
    refine ⟨hfreed, ?_, ?_, ?_, ?_, ?_, ?_⟩
    · show Filled natives 0 (m₁.record (.init output container true)).freePath.env
      rw [hframe]
      exact hfilled
    · show (m₁.record (.init output container true)).freePath.history = _
      rw [hevents]
      show m₁.history ++ [_] ++ _ = _
      rw [hhistory]
    · show (m₁.record (.init output container true)).freePath.outputStream = _
      rw [hframe]
      exact hkept.outputStream.trans h.stream
    · show (m₁.record (.init output container true)).freePath.context.outputChannel = _
      rw [hframe]
      exact (congrArg EncodeContext.outputChannel hkept.context).trans h.channel
    · show 0 ≤ (m₁.record (.init output container true)).freePath.context.channelBaseOffset
      rw [hframe]
      show 0 ≤ m₁.context.channelBaseOffset
      rw [hkept.context]
      exact h.base
    · show (m₁.record (.init output container true)).freePath.channels = _
      rw [hframe]
      exact hkept.channels.trans h.channels

/-! ## The whole open -/

/-- The record of an open that succeeds. -/
def openingEvents (output : Output) (request : NativeEncodingRequest)
    (natives : List StreamMetadata) : List Event :=
  pathEvents output ++ [.callocContext] ++ referenceEvents output ++ [.new] ++
    threadEvents request.numThreads ++ request.settings.map .set ++ attachEvents natives ++
    [.init output request.container true] ++ freeEvents output

/-- A context whose encoder is open. -/
structure Opened (lib : LibFlacMetadata) (output : Output) (request : NativeEncodingRequest)
    (natives : List StreamMetadata) (m : Machine E) : Prop where
  builds : buildBlocks lib request.metadata = .ok (natives.map some)
  container : request.container = 0 ∨ request.container = 1
  oggSerialNumber : request.container ≠ 1 → request.oggSerialNumber = none
  opening : Opening ⟨.ready, false, output.references, List.range natives.length⟩ natives
    (openingEvents output request natives) (some output) (toUint32 request.channels) m

/-- An open that failed has kept the contract and given everything back. -/
structure NotOpened (P : Platform) (m : Machine E) : Prop where
  follows : Follows m ⟨.absent, false, 0, []⟩ ∨ Follows m ⟨.freed, false, 0, []⟩
  emptied : Emptied m
  reported : m.env.pending = none → P.newGlobalRef = .error none

theorem outcome_openContext (F : LibFlac E) (lib : LibFlacMetadata) (O : Objects) (P : Platform)
    (h : Opening ⟨.allocated, output.path, 0, []⟩ [] (pathEvents output ++ [.callocContext]) none
      (toUint32 request.channels) m) :
    Outcome P (fun m => ∃ natives, buildBlocks lib request.metadata = .ok (natives.map some) ∧
      Opening ⟨.ready, false, output.references, List.range natives.length⟩ natives
        (openingEvents output request natives) (some output) (toUint32 request.channels) m)
      (openContext F lib O P output request m) := by
  have hnew := (outcome_prepareOutput O output h).andThen fun _ hm =>
    outcome_newEncoder (P := P) F hm
  have hthreads := hnew.andThen fun _ hm =>
    outcome_configureThreads (F := F) request.numThreads hm
  have hconfigured := hthreads.andThen fun _ hm => outcome_configure (F := F) request hm
  have hbuilt := hconfigured.andThen fun _ hm =>
    outcome_buildMetadata lib request.metadata hm
  have hattached := hbuilt.andThen fun m₁ (hm : ∃ natives, _ ∧ _) =>
    hm.elim fun natives hm => (outcome_attachMetadata (F := F) hm.2).imp
      fun _ h => Exists.intro natives (And.intro hm.1 h)
  exact hattached.andThen fun m₁ (hm : ∃ natives, _ ∧ _) =>
    hm.elim fun natives hm => (outcome_initEncoder (F := F) (O := O) hm.2).imp
      fun _ h => Exists.intro natives (And.intro hm.1 h)

/-- An open that breaks off gives everything back. -/
theorem Broken.notOpened {failure : Failure} (h : Broken P failure m) (F : LibFlac E) (O : Objects) :
    NotOpened P ((destroyEncodeContext F O m).freePath.report failure) := by
  obtain ⟨⟨u, hfollows, hstage⟩, howned, hreported⟩ := h
  have hfreed := (hfollows.destroy hstage F O).freePath
  have hemptied := emptied_destroy howned F O
  have henv : (destroyEncodeContext F O m).freePath.env = (destroyEncodeContext F O m).env := by
    rw [freePath_frame]
  have hkeeps : Emptied (destroyEncodeContext F O m).freePath :=
    ⟨by rw [henv]; exact hemptied.slots, by rw [henv]; exact hemptied.deleted⟩
  refine ⟨.inr (hfreed.report failure), ?_, ?_⟩
  · cases failure with
    | raised => exact hkeeps
    | throws exception => exact ⟨hkeeps.slots, hkeeps.deleted⟩
    | throwsUnlessPending exception =>
      unfold Machine.report
      dsimp only
      split
      · exact hkeeps
      · exact ⟨hkeeps.slots, hkeeps.deleted⟩
  · intro hnone
    cases failure with
    | raised =>
      refine (hreported rfl).resolve_left fun hpending => ?_
      obtain ⟨exception, hexception⟩ := Option.isSome_iff_exists.mp hpending
      -- what was pending before the context was destroyed is pending afterwards
      have hstill := pending_destroy F O hexception
      rw [← henv] at hstill
      rw [Machine.report, hstill] at hnone
      cases hnone
    | throws exception => cases hnone
    | throwsUnlessPending exception =>
      unfold Machine.report at hnone
      dsimp only at hnone
      split at hnone
      · rename_i hpending
        rw [hnone] at hpending
        cases hpending
      · cases hnone

/-- The record of a context that was not allocated yet. -/
structure Reading (output : Output) (m : Machine E) : Prop where
  follows : Follows m ⟨.absent, output.path, 0, []⟩
  filled : Filled [] 0 m.env
  history : m.history = pathEvents output
  stream : m.outputStream = false
  context : m.context = ⟨false, 0⟩

theorem emptied_of_keeps {s : Context} (hs : Filled [] 0 s) (hkeeps : Keeps s m.env) : Emptied m where
  slots := by
    rw [hkeeps.metadataBlocks, hs.metadataBlocks]
    rfl
  deleted := by
    rw [hkeeps.deleted, hkeeps.created, hs.deleted, hs.created]
    exact List.Perm.refl _

/-- Before there is a context, a failure has only the path to free. -/
theorem Reading.notOpened (h : Reading output m) {env : Context} (hkeeps : Keeps m.env env)
    (exception : Throwable) :
    NotOpened P ({ m with env := env }.freePath.throwNew exception) := by
  have hfollows := (h.follows.env hkeeps).freePath.throwNew exception
  refine ⟨.inl hfollows, ⟨?_, ?_⟩, by simp [Machine.throwNew, Context.throwNew]⟩
  · rw [freePath_frame]
    exact (emptied_of_keeps (m := { m with env := env }) h.filled hkeeps).slots
  · rw [freePath_frame]
    exact (emptied_of_keeps (m := { m with env := env }) h.filled hkeeps).deleted

theorem Reading.notOpened_of_pending (h : Reading output m) {env : Context}
    (hkeeps : Keeps m.env env) (hpending : env.pending.isSome) :
    NotOpened P { m with env := env }.freePath := by
  have henv : { m with env := env }.freePath.env = env := by rw [freePath_frame]
  have hemptied := emptied_of_keeps (m := { m with env := env }) h.filled hkeeps
  refine ⟨.inl (h.follows.env hkeeps).freePath, ⟨?_, ?_⟩, ?_⟩
  · rw [henv]
    exact hemptied.slots
  · rw [henv]
    exact hemptied.deleted
  · rw [henv]
    intro hnone
    rw [hnone] at hpending
    cases hpending

/-- The request is read by steps that raise when they fail. -/
theorem raises_readRequest (request : NativeEncodingRequest) :
    ∀ step ∈ readRequest request, StepRaises step ∨ False := by
  have hcontainer : StepRaises (.check (validateContainer request.container)) := by
    intro exception h
    rw [validateContainer] at h
    split at h
    · cases h
    · rw [← Except.error.inj h]
      rfl
  have hserial : StepRaises (.check (validateOggSerialNumber request)) := by
    intro exception h
    rw [validateOggSerialNumber] at h
    split at h
    · rw [← Except.error.inj h]
      rfl
    · cases h
  have hoptional : ∀ (c : Prop) [Decidable c] (steps : List Step),
      (∀ step ∈ steps, StepRaises step ∨ False) →
        ∀ step ∈ (if c then steps else []), StepRaises step ∨ False := by
    intro c _ steps hsteps step hstep
    split at hstep
    · exact hsteps step hstep
    · cases hstep
  intro step hstep
  simp only [readRequest, List.mem_append] at hstep
  rcases hstep with ((((((hstep | hstep) | hstep) | hstep) | hstep) | hstep) | hstep) | hstep
  · exact raises_methodIDs step hstep
  · exact raises_getters step hstep
  · simp only [List.mem_cons, List.not_mem_nil, or_false] at hstep
    rcases hstep with rfl | rfl
    · exact .inl hcontainer
    · exact .inl hserial
  · refine hoptional _ _ (fun step hstep => ?_) step hstep
    simp only [List.mem_cons, List.not_mem_nil, or_false] at hstep
    rcases hstep with rfl | rfl <;> exact .inl trivial
  · refine hoptional _ _ (fun step hstep => ?_) step hstep
    simp only [List.mem_cons, List.not_mem_nil, or_false] at hstep
    rcases hstep with rfl | rfl <;> exact .inl trivial
  · exact hoptional _ _ (fun step hstep => raises_getters step hstep) step hstep
  · exact hoptional _ _ (fun step hstep => raises_getters step hstep) step hstep
  · exact hoptional _ _ (fun step hstep => raises_getters step hstep) step hstep

/-- What the steps have checked. -/
theorem container_of_readRequest
    (h : ∀ step ∈ readRequest request, step.Passes) :
    (request.container = 0 ∨ request.container = 1) ∧
      (request.container ≠ 1 → request.oggSerialNumber = none) := by
  have hcontainer : validateContainer request.container = .ok () :=
    h (.check (validateContainer request.container)) (by simp [readRequest])
  have hserial : validateOggSerialNumber request = .ok () :=
    h (.check (validateOggSerialNumber request)) (by simp [readRequest])
  refine ⟨?_, fun hne => ?_⟩
  · by_contra hcontra
    rw [validateContainer, if_neg hcontra] at hcontainer
    cases hcontainer
  · by_contra hcontra
    rw [validateOggSerialNumber, if_pos ⟨hne, hcontra⟩] at hserial
    cases hserial

/-- What an open leaves, by its result. -/
def OpenResult (lib : LibFlacMetadata) (P : Platform) (output : Output)
    (request : Option NativeEncodingRequest) (r : Bool × Machine E) : Prop :=
  if r.1 then ∃ request', request = some request' ∧ ∃ natives, Opened lib output request' natives r.2
  else NotOpened P r.2

/-- The end of an open: its context is kept or destroyed. -/
theorem Outcome.result {r : Option Failure × Machine E}
    (h : Outcome P (fun m => ∃ natives, buildBlocks lib request.metadata = .ok (natives.map some) ∧
      Opening ⟨.ready, false, output.references, List.range natives.length⟩ natives
        (openingEvents output request natives) (some output) (toUint32 request.channels) m) r)
    (hcontainer : request.container = 0 ∨ request.container = 1)
    (hserial : request.container ≠ 1 → request.oggSerialNumber = none) :
    OpenResult lib P output (some request) (concludeOpen F O r) := by
  rcases r with ⟨_ | failure, m⟩
  · obtain ⟨natives, hnatives, hopening⟩ := h
    exact ⟨request, rfl, natives, hnatives, hcontainer, hserial, hopening⟩
  · exact Broken.notOpened h F O

theorem openEncoderInternal_result (F : LibFlac E) (lib : LibFlacMetadata) (O : Objects)
    (P : Platform) (given : Bool) (request : Option NativeEncodingRequest) (h : Reading output m) :
    OpenResult lib P output request (openEncoderInternal F lib O P output given request m) := by
  have hnull (request' : Option NativeEncodingRequest) : OpenResult lib P output request'
      (false, m.freePath.throwNew
        (.illegalArgumentException "Encoder output and request must not be null.")) :=
    h.notOpened (Keeps.refl m.env) _
  cases given with
  | false => exact hnull request
  | true =>
    cases request with
    | none => exact hnull none
    | some request =>
      unfold openEncoderInternal
      dsimp only
      rcases hread : m.runSteps P.faults (readRequest request) with ⟨_ | _, m₁⟩
      · obtain ⟨env, henv, rfl⟩ := runSteps_eq hread
        have hpending := pending_of_runSteps (raises_readRequest request) henv
        exact h.notOpened_of_pending (keeps_runSteps henv) (hpending.resolve_right id)
      · obtain ⟨env, henv, rfl⟩ := runSteps_eq hread
        obtain ⟨hpasses, hsucceeds⟩ := runSteps_succeeds henv
        obtain ⟨hcontainer, hserial⟩ := container_of_readRequest hpasses
        dsimp only
        rcases hcalloc : Machine.runSteps P.faults [.native .calloc true] { m with env := env } with
          ⟨_ | _, m₂⟩
        · obtain ⟨env', henv', rfl⟩ := runSteps_eq hcalloc
          exact h.notOpened (hsucceeds.toKeeps.trans (keeps_runSteps henv')) _
        · obtain ⟨env', henv', rfl⟩ := runSteps_eq hcalloc
          have hall := hsucceeds.trans (runSteps_succeeds henv').2
          have hallocated : Opening ⟨.allocated, output.path, 0, []⟩ []
              (pathEvents output ++ [.callocContext]) none (toUint32 request.channels)
              ({ m with env := env', channels := toUint32 request.channels }.record
                .callocContext) := by
            have hfollows := h.follows.env hall.toKeeps
            refine ⟨⟨Usage.after_snoc hfollows.history rfl, hfollows.path, hfollows.references,
              hfollows.hasEncoder, hfollows.blocks⟩, h.filled.succeeds hall,
              congrArg (· ++ [Event.callocContext]) h.history, h.stream, ?_, ?_, rfl⟩
            · show m.context.outputChannel = false
              rw [h.context]
            · show 0 ≤ m.context.channelBaseOffset
              rw [h.context]
          have houtcome := outcome_openContext F lib O P hallocated
          exact houtcome.result hcontainer hserial

theorem Reading.empty (F : LibFlac E) (h : output ≠ .file) : Reading output (Machine.empty F) := by
  refine ⟨⟨?_, ?_, rfl, rfl, by simp⟩, ⟨by simp [Context.Clean, Machine.empty, Context.empty], rfl,
    rfl, rfl, rfl⟩, ?_, rfl, rfl⟩
  all_goals
    cases output with
    | file => exact absurd rfl h
    | outputStream => rfl
    | seekableChannel => rfl

theorem filled_empty (F : LibFlac E) : Filled [] 0 (Machine.empty F).env :=
  ⟨by simp [Context.Clean, Machine.empty, Context.empty], rfl, rfl, rfl, rfl⟩

theorem follows_empty (F : LibFlac E) : Follows (Machine.empty F) Usage.initial :=
  ⟨rfl, rfl, rfl, rfl, by simp [Usage.initial]⟩

/-- An open that had nothing yet when it failed, with an exception. -/
theorem notOpened_report {env : Context} (hkeeps : Keeps (Machine.empty F).env env)
    (exception : Throwable) :
    NotOpened P ({ Machine.empty F with env := env }.report (.throwsUnlessPending exception)) := by
  have hfollows := ((follows_empty F).env hkeeps).report (.throwsUnlessPending exception)
  have hemptied := emptied_of_keeps (m := { Machine.empty F with env := env }) (filled_empty F) hkeeps
  refine ⟨.inl hfollows, ?_, ?_⟩
  all_goals
    unfold Machine.report
    dsimp only
    split
  · exact hemptied
  · exact ⟨hemptied.slots, hemptied.deleted⟩
  · rename_i hpending
    intro hnone
    rw [hnone] at hpending
    cases hpending
  · intro hnone
    cases hnone

/-- `openEncoderFile` up to the registration. -/
theorem openFile_result (F : LibFlac E) (lib : LibFlacMetadata) (O : Objects) (P : Platform)
    (path : Option Text) (request : Option NativeEncodingRequest) :
    OpenResult lib P .file request (openFile F lib O P path request (Machine.empty F)) := by
  have hnull (request : Option NativeEncodingRequest) : OpenResult lib P .file request
      (false, (Machine.empty F).throwNew
        (.illegalArgumentException "Encoder path and request must not be null.")) :=
    ⟨.inl ((follows_empty F).throwNew _),
      emptied_of_keeps (filled_empty F) ⟨rfl, rfl, rfl, rfl⟩,
      by simp [Machine.throwNew, Context.throwNew]⟩
  unfold openFile
  split
  · rename_i path request
    rcases hr : (Machine.empty F).runSteps P.faults (jstringToUtf8 path) with ⟨_ | _, m⟩
    · obtain ⟨env, henv, rfl⟩ := runSteps_eq hr
      exact notOpened_report (keeps_runSteps henv) _
    · obtain ⟨env, henv, rfl⟩ := runSteps_eq hr
      have hsucceeds := (runSteps_succeeds henv).2
      have hfollows := (follows_empty F).env hsucceeds.toKeeps
      have hreading : Reading .file
          ({ Machine.empty F with env := env, path := true }.record .mallocPath) :=
        { follows := ⟨Usage.after_snoc hfollows.history rfl, rfl, hfollows.references,
            hfollows.hasEncoder, hfollows.blocks⟩
          filled := (filled_empty F).succeeds hsucceeds
          history := rfl
          stream := rfl
          context := rfl }
      exact openEncoderInternal_result F lib O P true (some request) hreading
  · exact hnull request

end JFlac.Encode
