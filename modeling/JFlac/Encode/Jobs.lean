import JFlac.Encode.Encoders

/-!
# What libFLAC is given

Seen from Java, the native encoders are a table of jobs: a handle leads to a job until it is
finished or released, and a write adds a chunk of samples to the job of its handle if its arguments
agree. `Jobs` is that table, over nothing but the calls and their replies. The native encoders
refine it: libFLAC is given exactly the chunks and the end of every job, each once and in order, and
a reply says whether the table took the call.
-/

namespace JFlac.Encode

open Metadata Metadata.Native
open Handles (Registry Entry findEntryLocked)

/-! ## The table of jobs -/

/-- What libFLAC is given for a job. -/
inductive Use where
  | processInterleaved (samples : List ℤ) (frames : ℕ)
  | finish
  deriving DecidableEq, Repr

/-- The jobs: those with a handle, with their number and their channels, what libFLAC was given for
each, and how many there were. -/
structure Jobs where
  live : ℤ → Option (ℕ × ℕ)
  uses : ℕ → List Use
  opened : ℕ

namespace Jobs

/-- No job yet. -/
def empty : Jobs := ⟨fun _ => none, fun _ => [], 0⟩

/-- libFLAC is given one more thing for a job. -/
def push (s : Jobs) (id : ℕ) (use : Use) : Jobs :=
  { s with uses := Function.update s.uses id (s.uses id ++ [use]) }

/-- A handle is gone. -/
def drop (s : Jobs) (handle : ℤ) : Jobs := { s with live := Function.update s.live handle none }

end Jobs

/-- The chunk of a write whose arguments agree: there are frames, and as many samples as they have in
all channels. -/
def acceptedChunk (channels : ℕ) (samples : Option (List ℤ)) (frames : ℤ) (elements : Bool) :
    Option Use :=
  samples.bind fun samples =>
    if 0 < frames ∧ (samples.length : ℤ) = frames * channels ∧ elements = true then
      some (.processInterleaved samples frames.toNat)
    else none

/-- What a call does to the table. -/
def Jobs.step (s : Jobs) : Call × Reply → Jobs
  | (.openEncoder _ request _, reply) =>
    { s with
      live :=
        if reply.handle = 0 then s.live
        else Function.update s.live reply.handle
          (request.map fun request => (s.opened, toUint32 request.channels))
      uses := Function.update s.uses s.opened []
      opened := s.opened + 1 }
  | (.writeEncoderInterleaved handle samples frames elements, _) =>
    (s.live handle).elim s fun job =>
      (acceptedChunk job.2 samples frames elements).elim s fun use => s.push job.1 use
  | (.finishEncoder handle, _) =>
    (s.live handle).elim s fun job => (s.push job.1 .finish).drop handle
  | (.releaseEncoder handle, _) => (s.live handle).elim s fun _ => s.drop handle

/-- What a reply may be. -/
def Jobs.Allows (s : Jobs) : Call × Reply → Prop
  | (.openEncoder _ request P, reply) =>
    (reply.handle = 0 ∧ (reply.exception = none → P.newGlobalRef = .error none)) ∨
    (0 < reply.handle ∧ s.live reply.handle = none ∧ request.isSome = true)
  | (.writeEncoderInterleaved handle samples frames elements, reply) =>
    (s.live handle = none → reply.exception = some inactiveHandle) ∧
    ∀ job, s.live handle = some job →
      (frames = 0 → reply.exception = none) ∧
      (frames ≠ 0 → acceptedChunk job.2 samples frames elements = none → reply.exception ≠ none)
  | (.finishEncoder handle, reply) =>
    s.live handle = none → reply.exception = some inactiveHandle
  | (.releaseEncoder handle, reply) => s.live handle = none → reply.exception = none

/-- A record of calls that the table explains, and the table after it. -/
inductive Jobs.Explains : List (Call × Reply) → Jobs → Prop
  | nil : Explains [] Jobs.empty
  | snoc {calls : List (Call × Reply)} {s : Jobs} (call : Call × Reply) (h : Explains calls s)
      (hallows : s.Allows call) : Explains (calls ++ [call]) (s.step call)

/-! ## The table behind the native encoders -/

/-- What libFLAC was given, in a record. -/
def usesOf (history : List Event) : List Use :=
  history.filterMap fun
    | .processInterleaved samples frames _ => some (.processInterleaved samples frames)
    | .finish _ => some .finish
    | _ => none

theorem usesOf_append (history events : List Event) :
    usesOf (history ++ events) = usesOf history ++ usesOf events := List.filterMap_append

variable {E : Type} {F : LibFlac E} {lib : LibFlacMetadata} {objects : ℕ → Objects}
  {w w' : Encoders E} {m m' : Machine E} {P : Platform} {O : Objects}

/-- The table of the native encoders. -/
def Encoders.jobs (w : Encoders E) : Jobs where
  live handle := (findEntryLocked w.registry.entries handle).map fun e =>
    (e.session, (w.machines e.session).channels)
  uses id := usesOf (w.machines id).history
  opened := w.opened

/-! ## Opening and destroying give libFLAC nothing -/

/-- libFLAC was given nothing between the two. -/
def Quiet (m m' : Machine E) : Prop := usesOf m'.history = usesOf m.history

theorem Quiet.refl (m : Machine E) : Quiet m m := rfl

theorem Quiet.trans {m'' : Machine E} (h : Quiet m m') (h' : Quiet m' m'') : Quiet m m'' :=
  Eq.trans h' h

theorem Kept.quiet (h : Kept m m') : Quiet m m' := congrArg usesOf h.history

/-- An event that is no use. -/
theorem quiet_record (m : Machine E) (event : Event) (h : usesOf [event] = []) :
    Quiet m (m.record event) := by
  show usesOf (m.history ++ [event]) = usesOf m.history
  rw [usesOf_append, h, List.append_nil]

theorem quiet_freePath (m : Machine E) : Quiet m m.freePath := by
  unfold Machine.freePath
  split
  · exact quiet_record { m with path := false } .freePath rfl
  · exact Quiet.refl m

theorem quiet_report (m : Machine E) (failure : Failure) : Quiet m (m.report failure) := by
  cases failure with
  | throwsUnlessPending exception =>
    unfold Machine.report
    dsimp only
    split <;> rfl
  | _ => rfl

theorem quiet_destroy (F : LibFlac E) (O : Objects) (m : Machine E) :
    Quiet m (destroyEncodeContext F O m) := by
  have hdelete : Quiet m (m.deleteEncoder F O) := by
    unfold Machine.deleteEncoder
    split
    · exact (kept_perform O (F.delete m.encoder) m).quiet.trans
        (quiet_record { (m.perform O (F.delete m.encoder)).2 with hasEncoder := false } .delete rfl)
    · exact Quiet.refl m
  have hblocks : Quiet (m.deleteEncoder F O) (m.deleteEncoder F O).destroyMetadataBlocks :=
    quiet_record { m.deleteEncoder F O with
      env := (m.deleteEncoder F O).env.destroyMetadataBlocks } _ rfl
  have hstream : ∀ m : Machine E, Quiet m m.deleteStream := by
    intro m
    unfold Machine.deleteStream
    split
    · exact quiet_record { m with outputStream := false } .deleteGlobalRef rfl
    · exact Quiet.refl m
  have hchannel : ∀ m : Machine E, Quiet m m.deleteChannel := by
    intro m
    unfold Machine.deleteChannel
    split
    · exact quiet_record { m with context := { m.context with outputChannel := false } } _ rfl
    · exact Quiet.refl m
  exact (((hdelete.trans hblocks).trans (hstream _)).trans (hchannel _)).trans (quiet_record _ _ rfl)

theorem quiet_andThen {r : Option Failure × Machine E}
    {f : Machine E → Option Failure × Machine E} (hr : Quiet m r.2) (hf : ∀ m, Quiet m (f m).2) :
    Quiet m (andThen r f).2 := by
  rcases r with ⟨_ | failure, m'⟩
  · exact hr.trans (hf m')
  · exact hr

theorem quiet_prepareOutput (O : Objects) (P : Platform) (output : Output) (m : Machine E) :
    Quiet m (prepareOutput O P output m).2 := by
  cases output with
  | file => exact Quiet.refl m
  | outputStream =>
    show Quiet m (prepareEncodeOutputStream P m).2
    unfold prepareEncodeOutputStream
    rcases hr : m.runSteps P.faults (streamSteps P) with ⟨_ | _, m'⟩
    · obtain ⟨env, -, rfl⟩ := runSteps_eq hr
      rfl
    · obtain ⟨env, -, rfl⟩ := runSteps_eq hr
      exact quiet_record { m with env := env, outputStream := true } .newGlobalRef rfl
  | seekableChannel =>
    refine quiet_andThen ?_ fun m => ?_
    · unfold referToChannel
      rcases hr : m.runSteps P.faults (channelSteps P) with ⟨_ | _, m'⟩
      · obtain ⟨env, -, rfl⟩ := runSteps_eq hr
        rfl
      · obtain ⟨env, -, rfl⟩ := runSteps_eq hr
        exact quiet_record { m with env := env, context := ⟨true, 0⟩ } .newGlobalRef rfl
    · unfold captureBaseOffset
      split
      · rfl
      · dsimp only
        split <;> rfl

theorem quiet_applySettings (F : LibFlac E) (settings : List Setting) (m : Machine E) :
    Quiet m (applySettings F settings m).2 := by
  induction settings generalizing m with
  | nil => exact Quiet.refl m
  | cons setting settings ih =>
    have hrecord := quiet_record { m with encoder := (F.set setting m.encoder).2 } (.set setting) rfl
    unfold applySettings
    dsimp only
    split
    · exact Quiet.trans hrecord (ih _)
    · exact hrecord

theorem quiet_openContext (F : LibFlac E) (lib : LibFlacMetadata) (O : Objects) (P : Platform)
    (output : Output) (request : NativeEncodingRequest) (m : Machine E) :
    Quiet m (openContext F lib O P output request m).2 := by
  unfold openContext
  refine quiet_andThen (quiet_andThen (quiet_andThen (quiet_andThen (quiet_andThen
    (quiet_andThen (quiet_prepareOutput O P output m) fun m => ?_) fun m => ?_) fun m => ?_)
    fun m => ?_) fun m => ?_) fun m => ?_
  · unfold newEncoder
    split
    · exact quiet_record { m with hasEncoder := true, encoder := F.new } .new rfl
    · exact Quiet.refl m
  · unfold configureThreads
    split
    · exact Quiet.refl m
    · exact quiet_record { m with encoder := (F.setNumThreads _ m.encoder).2 } _ rfl
  · have hsettings := quiet_applySettings F request.settings m
    unfold configure
    rcases happly : applySettings F request.settings m with ⟨_ | _, m'⟩
    · rw [happly] at hsettings
      exact hsettings
    · rw [happly] at hsettings
      exact hsettings
  · unfold buildMetadata
    split <;> rfl
  · unfold attachMetadata
    split
    · exact Quiet.refl m
    · dsimp only
      split
      · exact quiet_record { m with encoder := (F.setMetadata _ m.encoder).2 } _ rfl
      · exact quiet_record { m with encoder := (F.setMetadata _ m.encoder).2 } _ rfl
  · have hperform := (kept_perform O (F.init output request.container m.encoder) m).quiet
    have hinit := (hperform.trans (quiet_record _ (.init output request.container
      (m.perform O (F.init output request.container m.encoder)).1) rfl)).trans (quiet_freePath _)
    unfold initEncoder
    dsimp only
    split
    · exact hinit
    · exact hinit

/-- An open gives libFLAC no samples. -/
theorem quiet_openEncoderInternal (F : LibFlac E) (lib : LibFlacMetadata) (O : Objects)
    (P : Platform) (output : Output) (given : Bool) (request : Option NativeEncodingRequest)
    (m : Machine E) : Quiet m (openEncoderInternal F lib O P output given request m).2 := by
  unfold openEncoderInternal
  split
  · rename_i request
    rcases hread : m.runSteps P.faults (readRequest request) with ⟨_ | _, m₁⟩
    · obtain ⟨env, -, rfl⟩ := runSteps_eq hread
      exact quiet_freePath { m with env := env }
    · obtain ⟨env, -, rfl⟩ := runSteps_eq hread
      dsimp only
      rcases hcalloc : Machine.runSteps P.faults [.native .calloc true] { m with env := env } with
        ⟨_ | _, m₂⟩
      · obtain ⟨env', -, rfl⟩ := runSteps_eq hcalloc
        exact quiet_freePath { m with env := env' }
      · obtain ⟨env', -, rfl⟩ := runSteps_eq hcalloc
        have hcontext := quiet_record { m with env := env', channels := toUint32 request.channels }
          .callocContext rfl
        have hopen := Quiet.trans hcontext (quiet_openContext F lib O P output request _)
        dsimp only
        unfold concludeOpen
        split
        · rename_i failure m₃ heq
          rw [heq] at hopen
          exact ((Quiet.trans hopen (quiet_destroy F O m₃)).trans (quiet_freePath _)).trans
            (quiet_report _ failure)
        · rename_i m₃ heq
          rw [heq] at hopen
          exact hopen
  · exact quiet_freePath m

theorem quiet_openTarget (F : LibFlac E) (lib : LibFlacMetadata) (O : Objects) (P : Platform)
    (request : Option NativeEncodingRequest) (target : Target) :
    usesOf (openTarget F lib O P request target).2.history = [] := by
  have hempty : usesOf (Machine.empty F).history = [] := rfl
  cases target with
  | outputStream given =>
    exact Eq.trans (quiet_openEncoderInternal F lib O P .outputStream given request _) hempty
  | seekableChannel given =>
    exact Eq.trans (quiet_openEncoderInternal F lib O P .seekableChannel given request _) hempty
  | file path =>
    show usesOf (openFile F lib O P path request (Machine.empty F)).2.history = []
    unfold openFile
    split
    · rename_i path request
      rcases hr : (Machine.empty F).runSteps P.faults (jstringToUtf8 path) with ⟨_ | _, m⟩
      · obtain ⟨env, -, rfl⟩ := runSteps_eq hr
        exact Eq.trans (quiet_report { Machine.empty F with env := env } _) hempty
      · obtain ⟨env, -, rfl⟩ := runSteps_eq hr
        exact Eq.trans (quiet_openEncoderInternal F lib O P .file true (some request) _) rfl
    · exact hempty

/-! ## Writing and finishing -/

theorem acceptedChunk_of_nonpos {channels : ℕ} {samples : Option (List ℤ)} {frames : ℤ}
    {elements : Bool} (h : ¬ 0 < frames) :
    acceptedChunk channels samples frames elements = none := by
  cases samples with
  | none => rfl
  | some samples => exact if_neg fun hall => h hall.1

/-- What a write gives to libFLAC, and what it raises when it gives nothing. -/
theorem writeInterleaved_uses (F : LibFlac E) (O : Objects) (samples : Option (List ℤ)) (frames : ℤ)
    (elements : Bool) (m : Machine E) :
    (m.writeInterleaved F O samples frames elements).channels = m.channels ∧
    usesOf (m.writeInterleaved F O samples frames elements).history =
      usesOf m.history ++ (acceptedChunk m.channels samples frames elements).toList ∧
    (frames ≠ 0 → acceptedChunk m.channels samples frames elements = none →
      (m.writeInterleaved F O samples frames elements).env.pending ≠ none) ∧
    (frames = 0 → m.writeInterleaved F O samples frames elements = m) := by
  unfold Machine.writeInterleaved
  split
  · rename_i hneg
    rw [acceptedChunk_of_nonpos (by omega)]
    exact ⟨rfl, (List.append_nil _).symm, fun _ _ => by simp [Machine.throwNew, Context.throwNew],
      fun h => by omega⟩
  rename_i hnonneg
  split
  · rename_i hzero
    rw [acceptedChunk_of_nonpos (by omega)]
    exact ⟨rfl, (List.append_nil _).symm, fun h => absurd hzero h, fun _ => rfl⟩
  rename_i hne
  split
  · exact ⟨rfl, (List.append_nil _).symm, fun _ _ => by simp [Machine.throwNew, Context.throwNew],
      fun h => absurd h hne⟩
  rename_i samples
  split
  · rename_i hlength
    have hnone : acceptedChunk m.channels (some samples) frames elements = none :=
      if_neg fun hall => hlength hall.2.1
    rw [hnone]
    exact ⟨rfl, (List.append_nil _).symm, fun _ _ => by simp [Machine.throwNew, Context.throwNew],
      fun h => absurd h hne⟩
  rename_i hlength
  split
  · rename_i helements
    have hnone : acceptedChunk m.channels (some samples) frames elements = none :=
      if_neg fun hall => by simp [hall.2.2] at helements
    rw [hnone]
    exact ⟨rfl, (List.append_nil _).symm, fun _ _ => by simp [Machine.throwNew, Context.throwNew],
      fun h => absurd h hne⟩
  rename_i helements
  have hsome : acceptedChunk m.channels (some samples) frames elements =
      some (.processInterleaved samples frames.toNat) := by
    refine if_pos ⟨by omega, not_not.mp hlength, ?_⟩
    simpa using helements
  have hkept := kept_perform O (F.processInterleaved samples frames.toNat m.encoder) m
  have huses : usesOf ((m.perform O (F.processInterleaved samples frames.toNat m.encoder)).2.history
      ++ [.processInterleaved samples frames.toNat
        (m.perform O (F.processInterleaved samples frames.toNat m.encoder)).1]) =
      usesOf m.history ++ [.processInterleaved samples frames.toNat] := by
    rw [usesOf_append, hkept.history]
    rfl
  rw [hsome]
  dsimp only
  split
  · exact ⟨hkept.channels, huses, fun _ h => by simp at h, fun h => absurd h hne⟩
  · exact ⟨hkept.channels, huses, fun _ h => by simp at h, fun h => absurd h hne⟩

theorem finishStream_uses (F : LibFlac E) (O O' : Objects) (m : Machine E) :
    usesOf (destroyEncodeContext F O' (m.finishStream F O).2).history =
      usesOf m.history ++ [.finish] := by
  have hkept := kept_perform O (F.finish m.encoder) m
  have huses : usesOf ((m.perform O (F.finish m.encoder)).2.record
      (.finish (m.perform O (F.finish m.encoder)).1)).history = usesOf m.history ++ [.finish] := by
    show usesOf ((m.perform O (F.finish m.encoder)).2.history ++ [.finish _]) = _
    rw [usesOf_append, hkept.history]
    rfl
  refine Eq.trans (quiet_destroy F O' (m.finishStream F O).2) ?_
  unfold Machine.finishStream
  dsimp only
  split
  · dsimp only
    split
    · exact Eq.trans (kept_callStream O .flush _).quiet huses
    · exact huses
  · exact huses

/-! ## The refinement -/

theorem findEntryLocked_cons (e : Entry) (entries : List Entry) (handle : ℤ) :
    findEntryLocked (e :: entries) handle =
      if e.handle = handle then some e else findEntryLocked entries handle := by
  rw [findEntryLocked, List.find?_cons]
  by_cases h : e.handle = handle <;> simp [h, findEntryLocked]

/-- An entry is found unless it was taken out. -/
theorem findEntryLocked_unlink (h : Sound w) (e : Entry) (handle : ℤ) :
    findEntryLocked (w.registry.entries.eraseP fun e' => e'.handle = e.handle) handle =
      if handle = e.handle then none else findEntryLocked w.registry.entries handle := by
  have hmem : ∀ e', e' ∈ (w.registry.entries.eraseP fun e' => e'.handle = e.handle) ↔
      e' ∈ w.registry.entries ∧ e'.handle ≠ e.handle := fun e' => Handles.mem_unlinked h.handles
  split
  · rename_i heq
    rw [Handles.findEntryLocked_eq_none]
    rintro e' he' rfl
    exact ((hmem e').mp he').2 heq
  · rename_i hne
    cases hfind : findEntryLocked w.registry.entries handle with
    | none =>
      rw [Handles.findEntryLocked_eq_none] at hfind ⊢
      exact fun e' he' => hfind e' ((hmem e').mp he').1
    | some e' =>
      obtain ⟨he', rfl⟩ := Handles.findEntryLocked_eq_some hfind
      have hnodup : ((w.registry.entries.eraseP fun e' => e'.handle = e.handle).map
          Entry.handle).Nodup := (List.eraseP_sublist.map Entry.handle).nodup h.handles
      exact Handles.findEntryLocked_of_mem hnodup ((hmem e').mpr ⟨he', hne⟩)

/-- Only the machine of a job matters to it. -/
theorem jobs_setMachine (w : Encoders E) (id : ℕ) (m : Machine E)
    (hchannels : m.channels = (w.machines id).channels) :
    (w.setMachine id m).jobs =
      { w.jobs with uses := Function.update w.jobs.uses id (usesOf m.history) } := by
  have hsame : ∀ id', (Function.update w.machines id m id').channels =
      (w.machines id').channels := by
    intro id'
    by_cases heq : id' = id
    · rw [heq, Function.update_self, hchannels]
    · rw [Function.update_of_ne heq]
  have huses : ∀ id', usesOf (Function.update w.machines id m id').history =
      Function.update w.jobs.uses id (usesOf m.history) id' := by
    intro id'
    by_cases heq : id' = id
    · rw [heq, Function.update_self, Function.update_self]
    · rw [Function.update_of_ne heq, Function.update_of_ne heq]
      rfl
  simp only [Encoders.jobs, Encoders.setMachine, Jobs.mk.injEq, and_true]
  refine ⟨funext fun handle => ?_, funext huses⟩
  congr 1
  funext e
  rw [hsame]

theorem live_of_mem (h : Sound w) {e : Entry} (he : e ∈ w.registry.entries) :
    w.jobs.live e.handle = some (e.session, (w.machines e.session).channels) := by
  show Option.map _ (findEntryLocked w.registry.entries e.handle) = _
  rw [Handles.findEntryLocked_of_mem h.handles he]
  rfl

theorem live_of_none {handle : ℤ} (h : findEntryLocked w.registry.entries handle = none) :
    w.jobs.live handle = none := by
  show Option.map _ (findEntryLocked w.registry.entries handle) = none
  rw [h]
  rfl

/-- A handle that is gone, with what libFLAC was given at the end. -/
theorem jobs_unlink (h : Sound w) {e : Entry} (he : e ∈ w.registry.entries)
    (session : Handles.Session) (m : Machine E) :
    ((w.withRegistry (unlink w.registry e session)).setMachine e.session m).jobs =
      ({ w.jobs with uses := Function.update w.jobs.uses e.session (usesOf m.history) } :
        Jobs).drop e.handle := by
  have huses : ∀ id', usesOf (Function.update w.machines e.session m id').history =
      Function.update w.jobs.uses e.session (usesOf m.history) id' := by
    intro id'
    by_cases heq : id' = e.session
    · rw [heq, Function.update_self, Function.update_self]
    · rw [Function.update_of_ne heq, Function.update_of_ne heq]
      rfl
  simp only [Encoders.jobs, Encoders.setMachine, Encoders.withRegistry, Jobs.drop, unlink,
    Jobs.mk.injEq, and_true]
  refine ⟨funext fun handle => ?_, funext huses⟩
  rw [findEntryLocked_unlink h e]
  by_cases heq : handle = e.handle
  · rw [if_pos heq, heq, Function.update_self]
    rfl
  · rw [if_neg heq, Function.update_of_ne heq]
    cases hfind : findEntryLocked w.registry.entries handle with
    | none => rfl
    | some e' =>
      obtain ⟨he', rfl⟩ := Handles.findEntryLocked_eq_some hfind
      have hne : e'.session ≠ e.session := fun hsession => heq
        (congrArg Entry.handle (List.inj_on_of_nodup_map h.contexts he' he hsession))
      simp only [Option.map_some, Function.update_of_ne hne]

/-- A new context without a handle. -/
theorem jobs_addEnded (h : Sound w) (m : Machine E) (hm : usesOf m.history = []) :
    ({ w.setMachine w.opened m with opened := w.opened + 1 } : Encoders E).jobs =
      { w.jobs with uses := Function.update w.jobs.uses w.opened [], opened := w.opened + 1 } := by
  have huses : ∀ id', usesOf (Function.update w.machines w.opened m id').history =
      Function.update w.jobs.uses w.opened [] id' := by
    intro id'
    by_cases heq : id' = w.opened
    · rw [heq, Function.update_self, Function.update_self, hm]
    · rw [Function.update_of_ne heq, Function.update_of_ne heq]
      rfl
  simp only [Encoders.jobs, Encoders.setMachine, Jobs.mk.injEq, and_true]
  refine ⟨funext fun handle => ?_, funext huses⟩
  cases hfind : findEntryLocked w.registry.entries handle with
  | none => rfl
  | some e =>
    have hne : e.session ≠ w.opened := Nat.ne_of_lt
      (h.bound e (Handles.findEntryLocked_eq_some hfind).1)
    simp only [Option.map_some, Function.update_of_ne hne]

/-- A new context under a new handle. -/
theorem jobs_addAlive (h : Sound w) (m : Machine E) (hm : usesOf m.history = []) {handle : ℤ}
    {registry : Registry}
    (hregister : Handles.registerEncodeContext w.registry w.opened = some (handle, registry)) :
    0 < handle ∧ w.jobs.live handle = none ∧
    ({ (w.withRegistry registry).setMachine w.opened m with opened := w.opened + 1 } :
      Encoders E).jobs =
      { live := Function.update w.jobs.live handle (some (w.opened, m.channels))
        uses := Function.update w.jobs.uses w.opened []
        opened := w.opened + 1 } := by
  obtain ⟨hpositive, -, hfree, rfl⟩ := Handles.register_spec h.counter.1 h.counter.2 hregister
  refine ⟨hpositive, live_of_none (Handles.findEntryLocked_eq_none.mpr hfree), ?_⟩
  have huses : ∀ id', usesOf (Function.update w.machines w.opened m id').history =
      Function.update w.jobs.uses w.opened [] id' := by
    intro id'
    by_cases heq : id' = w.opened
    · rw [heq, Function.update_self, Function.update_self, hm]
    · rw [Function.update_of_ne heq, Function.update_of_ne heq]
      rfl
  simp only [Encoders.jobs, Encoders.setMachine, Encoders.withRegistry, Jobs.mk.injEq, and_true]
  refine ⟨funext fun handle' => ?_, funext huses⟩
  rw [findEntryLocked_cons]
  dsimp only
  by_cases heq : handle' = handle
  · rw [if_pos heq.symm, heq, Function.update_self, Option.map_some, Function.update_self]
  · rw [if_neg (Ne.symm heq), Function.update_of_ne heq]
    cases hfind : findEntryLocked w.registry.entries handle' with
    | none => rfl
    | some e =>
      have hne : e.session ≠ w.opened := Nat.ne_of_lt
        (h.bound e (Handles.findEntryLocked_eq_some hfind).1)
      simp only [Option.map_some, Function.update_of_ne hne]

/-- A call that the table takes. -/
def Tracks (w : Encoders E) (r : Reply × Encoders E) (call : Call) : Prop :=
  w.jobs.Allows (call, r.1) ∧ r.2.jobs = w.jobs.step (call, r.1)

theorem tracks_openEncoder (h : Sound w) {target : Target}
    {request : Option NativeEncodingRequest} {P : Platform} {r : Reply × Encoders E}
    (hr : w.openEncoder F lib objects P target request = some r) :
    Tracks w r (.openEncoder target request P) := by
  have hresult := openTarget_result F lib (objects w.opened) P request target
  have hquiet := quiet_openTarget F lib (objects w.opened) P request target
  unfold Encoders.openEncoder at hr
  dsimp only at hr
  rcases hopen : openTarget F lib (objects w.opened) P request target with ⟨_ | _, m⟩
  · rw [hopen] at hresult hquiet hr
    obtain rfl := Option.some.inj hr
    refine ⟨.inl ⟨rfl, (show NotOpened P m from hresult).reported⟩, ?_⟩
    rw [jobs_addEnded h m hquiet]
    rfl
  · rw [hopen] at hresult hquiet hr
    obtain ⟨request', rfl, natives, hopened⟩ := hresult
    dsimp only at hr
    split at hr
    · obtain rfl := Option.some.inj hr
      have hm : usesOf ((destroyEncodeContext F (objects w.opened) m).throwNew
          registerFailure).history = [] := Eq.trans (quiet_destroy F (objects w.opened) m) hquiet
      refine ⟨.inl ⟨rfl, fun hnone => by cases hnone⟩, ?_⟩
      rw [jobs_addEnded h _ hm]
      rfl
    · rw [Option.map_eq_some_iff] at hr
      obtain ⟨⟨handle, registry⟩, hregister, rfl⟩ := hr
      obtain ⟨hpositive, hnone, hjobs⟩ := jobs_addAlive h m hquiet hregister
      refine ⟨.inr ⟨hpositive, hnone, rfl⟩, hjobs.trans ?_⟩
      have hne : handle ≠ 0 := by omega
      have hchannels : m.channels = toUint32 request'.channels := hopened.opening.channels
      simp only [Jobs.step, if_neg hne, Option.map_some, hchannels]
      rfl

theorem tracks_writeEncoderInterleaved (F : LibFlac E) (objects : ℕ → Objects) (h : Sound w)
    (handle : ℤ) (samples : Option (List ℤ)) (frames : ℤ) (elements : Bool) :
    Tracks w (w.writeEncoderInterleaved F objects handle samples frames elements)
      (.writeEncoderInterleaved handle samples frames elements) := by
  cases hfind : findEntryLocked w.registry.entries handle with
  | none =>
    have hlive := live_of_none hfind
    rw [Encoders.writeEncoderInterleaved_of_none hfind]
    refine ⟨⟨fun _ => rfl, fun job hjob => ?_⟩, ?_⟩
    · rw [hlive] at hjob
      cases hjob
    · simp only [Jobs.step, hlive, Option.elim_none]
  | some e =>
    obtain ⟨he, rfl⟩ := Handles.findEntryLocked_eq_some hfind
    have hlive := live_of_mem h he
    obtain ⟨hchannels, huses, hrejected, hzero⟩ := writeInterleaved_uses F (objects e.session)
      samples frames elements (w.machines e.session).enter
    rw [Encoders.writeEncoderInterleaved_of_mem h he]
    refine ⟨⟨fun hnone => ?_, fun job hjob => ?_⟩, ?_⟩
    · rw [hlive] at hnone
      cases hnone
    · obtain rfl := Option.some.inj (hlive.symm.trans hjob)
      exact ⟨fun hframes => by rw [hzero hframes]; rfl, hrejected⟩
    · rw [jobs_setMachine w e.session _ hchannels, huses]
      simp only [Jobs.step, hlive, Option.elim_some]
      show _ = (acceptedChunk (w.machines e.session).enter.channels samples frames elements).elim _ _
      cases acceptedChunk (w.machines e.session).enter.channels samples frames elements with
      | none =>
        have hsame : Function.update w.jobs.uses e.session
            (usesOf (w.machines e.session).enter.history ++ []) = w.jobs.uses := by
          rw [List.append_nil]
          exact Function.update_eq_self e.session w.jobs.uses
        exact congrArg (fun uses => { w.jobs with uses := uses }) hsame
      | some use => rfl

theorem tracks_finishEncoder (F : LibFlac E) (objects : ℕ → Objects) (h : Sound w) (handle : ℤ) :
    Tracks w (w.finishEncoder F objects handle) (.finishEncoder handle) := by
  cases hfind : findEntryLocked w.registry.entries handle with
  | none =>
    have hlive := live_of_none hfind
    rw [Encoders.finishEncoder_of_none hfind]
    refine ⟨fun _ => rfl, ?_⟩
    simp only [Jobs.step, hlive, Option.elim_none]
  | some e =>
    obtain ⟨he, rfl⟩ := Handles.findEntryLocked_eq_some hfind
    have hlive := live_of_mem h he
    obtain ⟨session, heq⟩ := Encoders.finishEncoder_of_mem F objects h he
    rw [heq]
    refine ⟨fun hnone => ?_, ?_⟩
    · rw [hlive] at hnone
      cases hnone
    · rw [jobs_unlink h he, finishStream_uses]
      simp only [Jobs.step, hlive, Option.elim_some]
      rfl

theorem tracks_releaseEncoder (F : LibFlac E) (objects : ℕ → Objects) (h : Sound w) (handle : ℤ) :
    Tracks w (w.releaseEncoder F objects handle) (.releaseEncoder handle) := by
  cases hfind : findEntryLocked w.registry.entries handle with
  | none =>
    have hlive := live_of_none hfind
    rw [Encoders.releaseEncoder_of_none hfind]
    refine ⟨fun _ => rfl, ?_⟩
    simp only [Jobs.step, hlive, Option.elim_none]
  | some e =>
    obtain ⟨he, rfl⟩ := Handles.findEntryLocked_eq_some hfind
    have hlive := live_of_mem h he
    obtain ⟨session, heq⟩ := Encoders.releaseEncoder_of_mem F objects h he
    rw [heq]
    refine ⟨fun hnone => ?_, ?_⟩
    · rw [hlive] at hnone
      cases hnone
    · have huses : Function.update w.jobs.uses e.session (usesOf (destroyEncodeContext F
          (objects e.session) (w.machines e.session).enter).history) = w.jobs.uses := by
        rw [quiet_destroy F (objects e.session) (w.machines e.session).enter]
        exact Function.update_eq_self e.session w.jobs.uses
      rw [jobs_unlink h he, huses]
      simp only [Jobs.step, hlive, Option.elim_some]

theorem tracks_perform (h : Sound w) {call : Call} {r : Reply × Encoders E}
    (hr : w.perform F lib objects call = some r) : Tracks w r call := by
  cases call with
  | openEncoder target request P => exact tracks_openEncoder h hr
  | writeEncoderInterleaved handle samples frames elements =>
    obtain rfl := Option.some.inj hr
    exact tracks_writeEncoderInterleaved F objects h handle samples frames elements
  | finishEncoder handle =>
    obtain rfl := Option.some.inj hr
    exact tracks_finishEncoder F objects h handle
  | releaseEncoder handle =>
    obtain rfl := Option.some.inj hr
    exact tracks_releaseEncoder F objects h handle

/-- Every run of the native encoders is a run of the table. -/
theorem explains_run {calls : List Call} (h : Sound w) (hexplains : Jobs.Explains w.calls w.jobs)
    (hlength : (w.calls.length : ℤ) + calls.length ≤ longMax)
    (hrun : Lib.run (Encoders.step F lib objects) w calls = some w') :
    Jobs.Explains w'.calls w'.jobs := by
  induction calls generalizing w with
  | nil =>
    obtain rfl := Option.some.inj hrun
    exact hexplains
  | cons call calls ih =>
    rw [List.length_cons] at hlength
    obtain ⟨w₁, hstep, hrest⟩ := Lib.run_cons_eq_some.mp hrun
    obtain ⟨w₂, hstep', hsound, hcount⟩ := h.step F lib objects (by omega) call
    obtain rfl := Option.some.inj (hstep.symm.trans hstep')
    refine ih hsound ?_ (by omega) hrest
    rw [Encoders.step, Option.map_eq_some_iff] at hstep
    obtain ⟨r, hperform, rfl⟩ := hstep
    obtain ⟨hallows, hjobs⟩ := tracks_perform h hperform
    have hsnoc := Jobs.Explains.snoc (call, r.1) hexplains hallows
    rw [← hjobs] at hsnoc
    exact hsnoc

/-- **The native encoders refine the table of jobs.** Whatever libFLAC and the JVM do: after any
calls, libFLAC was given for every job exactly the chunks that were accepted and the end, in order,
and the replies are those of the table. -/
theorem encoders_refine (F : LibFlac E) (lib : LibFlacMetadata) (objects : ℕ → Objects)
    (calls : List Call) (hlength : (calls.length : ℤ) ≤ longMax) :
    ∃ w, Lib.run (Encoders.step F lib objects) (Encoders.empty F) calls = some w ∧
      Jobs.Explains w.calls w.jobs := by
  have hbound : ((Encoders.empty F).calls.length : ℤ) + calls.length ≤ longMax := by
    show ((0 : ℕ) : ℤ) + calls.length ≤ longMax
    omega
  obtain ⟨w, hrun, -⟩ := (sound_empty F).run F lib objects hbound
  exact ⟨w, hrun, explains_run (sound_empty F) Jobs.Explains.nil hbound hrun⟩

/-- The chunk and the end of the first job reached libFLAC, and nothing else did. -/
theorem encoders_refine_plain :
    ∃ w, Lib.run (Encoders.step plainLibFlac plainMetadata plainObjects)
        (Encoders.empty plainLibFlac) plainCalls = some w ∧
      Jobs.Explains w.calls w.jobs ∧
      w.jobs.uses 0 = [.processInterleaved [1, -1, 2, -2] 2, .finish] ∧ w.jobs.uses 1 = [] := by
  obtain ⟨w, hrun, hexplains⟩ :=
    encoders_refine plainLibFlac plainMetadata plainObjects plainCalls (by decide)
  have huses : (Lib.run (Encoders.step plainLibFlac plainMetadata plainObjects)
      (Encoders.empty plainLibFlac) plainCalls).map (fun w => (w.jobs.uses 0, w.jobs.uses 1)) =
        some ([.processInterleaved [1, -1, 2, -2] 2, .finish], []) := by decide +kernel
  rw [hrun] at huses
  obtain ⟨hfirst, hsecond⟩ := Prod.mk.inj (Option.some.inj huses)
  exact ⟨w, hrun, hexplains, hfirst, hsecond⟩

end JFlac.Encode
