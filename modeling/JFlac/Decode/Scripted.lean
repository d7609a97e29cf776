import JFlac.Decode.Deliveries

/-!
# A libFLAC that follows a script

A concrete instance of the library parameter: every call plays the next script. It is how a
hypothesis about libFLAC is seen to be satisfiable, and how an input of the model is written down.
-/

namespace JFlac.Decode

/-- What one libFLAC call does: the callbacks it makes, what it returns and the state it leaves. -/
structure Script where
  callbacks : List Callback
  success : Bool
  state : DecoderState

/-- A decoder with the scripts of the calls to come. -/
structure Scripted where
  scripts : List Script
  state : DecoderState

/-- Makes the callbacks of a script; a write callback that aborts ends the call. -/
def Script.play (success : Bool) (next : Scripted) : List Callback → Activity Scripted
  | [] => .done (success, next)
  | .write frame :: callbacks => .call (.write frame) fun
    | .cont => play success next callbacks
    | .abort => .done (false, { next with state := .aborted })
  | callback :: callbacks => .call callback fun _ => play success next callbacks

/-- Whether a callback is one that a metadata pass can make. -/
def Callback.isWrite : Callback → Bool
  | .write _ => true
  | _ => false

/-- One call; a decoder without scripts is at the end of its stream. -/
def Scripted.next (d : Scripted) (allowed : Callback → Bool) : Activity Scripted :=
  match d.scripts with
  | [] => .done (true, { d with state := .endOfStream })
  | script :: scripts =>
    Script.play script.success ⟨scripts, script.state⟩ (script.callbacks.filter allowed)

/-- The library that plays the given scripts. -/
def scripted (scripts : List Script) : LibFlac Scripted :=
  { new := some ⟨scripts, .other⟩
    setMd5Checking := some
    setDecodeChainedStream := some
    init := fun _ _ d => some d
    processUntilEndOfMetadata := fun d => d.next fun callback => !callback.isWrite
    processUntilEndOfLink := fun d => d.next fun _ => true
    processUntilEndOfStream := fun d => d.next fun _ => true
    processSingle := fun d => d.next fun _ => true
    seekAbsolute := fun d _ => d.next fun _ => true
    finishLink := fun d => ([], true, d)
    finish := fun _ => true
    getState := fun d => d.state
    getResolvedStateString := fun _ => some "FLAC__STREAM_DECODER_END_OF_STREAM" }

/-- A JVM in which nothing raises and no allocation fails. -/
def quietJvm : Jvm :=
  { throws := fun _ _ => none
    mallocFails := fun _ => false
    transport := fun _ _ => .ok ⟨0, []⟩ }

/-- A block of the given shape, every sample of which is zero. -/
def silentFrame (channels blocksize : ℕ) (hchannels : channels < 4294967296)
    (hblocksize : blocksize < 4294967296) : Frame :=
  { channels := channels, blocksize := blocksize, buffer := fun _ _ => 0
    channels_lt := hchannels, blocksize_lt := hblocksize }

theorem one_lt_uint32 : 1 < 4294967296 := by decide

theorem two_lt_uint32 : 2 < 4294967296 := by decide

/-- The callbacks played are those of the script. -/
theorem Script.play_requests {P : Callback → Prop} {callbacks : List Callback}
    (h : ∀ callback ∈ callbacks, P callback) (success : Bool) (next : Scripted) :
    (Script.play success next callbacks).Requests P := by
  induction callbacks with
  | nil => trivial
  | cons callback callbacks ih =>
    have hrest := ih fun c hc => h c (List.mem_cons_of_mem _ hc)
    have hfirst := h callback List.mem_cons_self
    cases callback with
    | write frame =>
      refine ⟨hfirst, fun status => ?_⟩
      cases status with
      | cont => exact hrest
      | abort => trivial
    | metadata block => exact ⟨hfirst, fun _ => hrest⟩
    | error status => exact ⟨hfirst, fun _ => hrest⟩
    | transport callback => exact ⟨hfirst, fun _ => hrest⟩

/-- A scripted metadata pass hands out no block. -/
theorem scripted_metadataOnly (scripts : List Script) : (scripted scripts).MetadataOnly := by
  intro d
  change (Scripted.next d _).Requests _
  unfold Scripted.next
  split
  · trivial
  · refine Script.play_requests (fun callback hcallback frame => ?_) _ _
    rintro rfl
    simp [Callback.isWrite] at hcallback

/-- The script of a call that hands over one block. -/
def Script.block (frame : Frame) : Script := ⟨[.write frame], true, .other⟩

/-- A decoder whose scripts hand over one block each reads these blocks. -/
theorem scripted_singles (scripts : List Script) (J : Jvm) (source : Source) :
    (scripted scripts).Singles J source fun blocks s =>
      s.decoder.scripts = blocks.map Script.block := by
  refine ⟨fun block blocks s hat => ?_, fun s hat => ?_⟩
  · refine ⟨⟨⟨blocks.map Script.block, .other⟩, s.transportCalls⟩, ?_, nofun, nofun, rfl⟩
    show Delivers J source (s.decoder.next fun _ => true) _ _ _ _
    unfold Scripted.next
    rw [hat, List.map_cons]
    simp only [Script.block, List.filter_true]
    exact .pcm _ _ _ _ _ _ (.done _ _ _)
  · refine ⟨⟨⟨s.decoder.scripts, .endOfStream⟩, s.transportCalls⟩, ?_, rfl, hat⟩
    show Delivers J source (s.decoder.next fun _ => true) _ _ _ _
    unfold Scripted.next
    rw [hat]
    exact .done _ _ _

end JFlac.Decode
