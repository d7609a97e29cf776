import JFlac.Metadata.Writing

/-!
# How a block is built

A builder reads its model through the JNI, has libFLAC allocate a block and fills it. It can be cut
short at every one of these steps, before the block exists and after. What stands in a finished
block is what the functions of `JFlac.Metadata.Writing` compute.
-/

namespace JFlac.Metadata

/-- The JNI functions that raise an exception when they fail. `GetObjectClass`, `GetArrayLength`
and `IsInstanceOf` do not fail on the references they get. -/
inductive JniCall where
  | findClass (name : String)
  | getMethodID (name : String)
  | getStaticFieldID (name : String)
  | callMethod (name : String)
  | pushLocalFrame
  | getObjectArrayElement
  | getIntArrayRegion
  | getByteArrayRegion
  deriving DecidableEq, Repr

/-- The calls that fail without an exception. -/
inductive NativeCall where
  | malloc
  | calloc
  | getByteArrayElements
  | chainNew
  | chainRead
  | chainWrite
  | iteratorNew
  | iteratorDeleteBlock
  | iteratorInsertBlockAfter
  | objectNew
  | objectClone
  | vorbiscommentSetVendorString
  | vorbiscommentAppendComment
  | pictureSetMimeType
  | pictureSetDescription
  | pictureSetData
  | applicationSetData
  | seektableResizePoints
  | cuesheetResizeTracks
  | cuesheetTrackResizeIndices
  deriving DecidableEq, Repr

/-- A step that can fail: a JNI call, a native call that takes its argument or does not, and a check
of the C code. -/
inductive Step where
  | jni (call : JniCall)
  | native (call : NativeCall) (accepts : Bool)
  | check (result : Build Unit)

/-- What can go wrong in the environment, by the number of steps taken before: a JNI call raises, a
native call fails. The status of the chain is a text of libFLAC. -/
structure Faults where
  raises : ℕ → JniCall → Option Throwable
  fails : ℕ → NativeCall → Bool
  chainStatus : ℕ → String

/-- The outcome of a step after `n` others. -/
def Step.run (faults : Faults) (n : ℕ) : Step → Build Unit
  | .jni call =>
    match faults.raises n call with
    | some exception => .error (some exception)
    | none => .ok ()
  | .native call accepts => if accepts && !faults.fails n call then .ok () else .error none
  | .check result => result

/-- The step can succeed: the argument is acceptable and the check holds. -/
def Step.Passes : Step → Prop
  | .jni _ => True
  | .native _ accepts => accepts = true
  | .check result => result = .ok ()

theorem Step.passes_of_run {faults : Faults} {n : ℕ} {step : Step}
    (h : step.run faults n = .ok ()) : step.Passes := by
  cases step with
  | jni call => trivial
  | native call accepts =>
    cases accepts with
    | false => simp [Step.run] at h
    | true => rfl
  | check result => exact h

/-- A JNI call fails with an exception. -/
theorem Step.isSome_of_run_jni {faults : Faults} {n : ℕ} {call : JniCall}
    {exception : Option Throwable} (h : (Step.jni call).run faults n = .error exception) :
    exception.isSome := by
  simp only [Step.run] at h
  split at h
  · simp only [Except.error.injEq] at h
    rw [← h]
    rfl
  · simp at h

/-- The check that a computation of a builder succeeds. -/
def Step.ensure {α : Type} (result : Build α) : Step := .check (result.map fun _ => ())

theorem Step.exists_of_passes_ensure {α : Type} {result : Build α}
    (h : (Step.ensure result).Passes) : ∃ a, result = .ok a := by
  cases result with
  | error exception => simp [Step.ensure, Step.Passes, Except.map] at h
  | ok a => exact ⟨a, rfl⟩

/-- `GetMethodID` for each name. -/
def methodIDs (names : List String) : List Step := names.map fun name => .jni (.getMethodID name)

/-- `CallObjectMethod` and its siblings for each name. -/
def getters (names : List String) : List Step := names.map fun name => .jni (.callMethod name)

/-- The steps of `jstring_to_utf8`. -/
def jstringToUtf8 (text : Text) : List Step :=
  [.jni .pushLocalFrame, .jni (.findClass "java/lang/String"), .jni (.getMethodID "getBytes"),
    .jni (.findClass "java/nio/charset/StandardCharsets"), .jni (.getStaticFieldID "UTF_8"),
    .jni (.callMethod "getBytes"), .native .malloc true] ++
    if text = [] then [] else [.jni .getByteArrayRegion]

/-- A Java byte array copied to a temporary buffer, if there is anything to copy. -/
def copyByteArray (data : List UInt8) : List Step :=
  if data = [] then [] else [.native .malloc true, .jni .getByteArrayRegion]

/-- A builder: the steps before its block exists, the allocation, the steps after each of which a
failure deletes the block, and what the block holds when they are done. -/
structure Builder where
  before : List Step
  new : NativeCall
  inside : List Step
  content : Option StreamMetadata

/-- When nothing stops the builder, its block is the result. -/
def Builder.Builds (builder : Builder) (result : Build (Option StreamMetadata)) : Prop :=
  (∀ step ∈ builder.before ++ builder.inside, step.Passes) →
    ∃ block, builder.content = some block ∧ result = .ok (some block)

/-- A builder behind other steps. -/
def Builder.behind (steps : List Step) (builder : Builder) : Builder :=
  { builder with before := steps ++ builder.before }

theorem Builder.Builds.behind {builder : Builder} {result : Build (Option StreamMetadata)}
    (h : builder.Builds result) (steps : List Step) : (builder.behind steps).Builds result := by
  intro hpass
  refine h fun step hstep => hpass step ?_
  simp only [Builder.behind, List.append_assoc, List.mem_append] at hstep ⊢
  exact Or.inr hstep

/-- A builder whose last check is the computation of the block. -/
theorem Builder.builds_of_ensure {builder : Builder} {result : Build StreamMetadata}
    (hcontent : builder.content = result.toOption)
    (hmem : Step.ensure result ∈ builder.before ++ builder.inside) :
    builder.Builds (result.map some) := by
  intro hpass
  obtain ⟨block, hblock⟩ := Step.exists_of_passes_ensure (hpass _ hmem)
  rw [hblock] at hcontent
  exact ⟨block, hcontent, by rw [hblock]; rfl⟩

variable (lib : LibFlacMetadata)

/-! ## Comments -/

/-- One round of the loop over the entries; an entry without separator is copied first. -/
def appendComment (entry : Text) : List Step :=
  [.jni .pushLocalFrame, .jni .getObjectArrayElement] ++ jstringToUtf8 entry ++
    [.ensure (normalisedEntry (nativeString entry))] ++
    (if asciiByte '=' ∉ nativeString entry then [.native .malloc true] else []) ++
    [.native .vorbiscommentAppendComment
      (((normalisedEntry (nativeString entry)).map lib.appendComment).toOption.getD false)]

/-- The vendor string of a comment block. -/
def setVendor : Option Text → List Step
  | none => []
  | some vendor =>
    jstringToUtf8 vendor ++
      [.native .vorbiscommentSetVendorString (lib.setVendorString (nativeString vendor))]

/-- `build_vorbis_comment_block` when it creates a block. -/
def vorbisCommentBuilder (vendor : Option Text) (entries : List Text) (forceCreate : Bool) :
    Builder where
  before := []
  new := .objectNew
  inside := setVendor lib vendor ++ entries.flatMap (appendComment lib)
  content := (buildVorbisCommentBlock lib vendor entries forceCreate).toOption.join

theorem appendComments_of_passes {entries : List Text}
    (h : ∀ step ∈ entries.flatMap (appendComment lib), step.Passes) :
    ∃ comments, appendComments lib entries = .ok comments := by
  induction entries with
  | nil => exact ⟨[], rfl⟩
  | cons entry entries ih =>
    rw [List.flatMap_cons] at h
    obtain ⟨comments, hcomments⟩ := ih fun step hstep => h step (List.mem_append_right _ hstep)
    have hentry : ∀ step ∈ appendComment lib entry, step.Passes :=
      fun step hstep => h step (List.mem_append_left _ hstep)
    obtain ⟨bytes, hbytes⟩ := Step.exists_of_passes_ensure
      (hentry (.ensure (normalisedEntry (nativeString entry))) (by simp [appendComment]))
    have hlast := hentry (.native .vorbiscommentAppendComment
      (((normalisedEntry (nativeString entry)).map lib.appendComment).toOption.getD false))
      (by simp [appendComment])
    rw [hbytes] at hlast
    have happend : lib.appendComment bytes = true := hlast
    refine ⟨bytes :: comments, ?_⟩
    simp only [appendComments, hbytes, hcomments, bind, Except.bind, happend, if_true]

/-- The builder creates the block whenever the function does not return a null block. -/
theorem vorbisCommentBuilder_builds (vendor : Option Text) (entries : List Text)
    (forceCreate : Bool) (h : ¬ (forceCreate = false ∧ vendor = none ∧ entries = [])) :
    (vorbisCommentBuilder lib vendor entries forceCreate).Builds
      (buildVorbisCommentBlock lib vendor entries forceCreate) := by
  intro hpass
  simp only [vorbisCommentBuilder, List.nil_append, List.mem_append] at hpass
  obtain ⟨comments, hcomments⟩ :=
    appendComments_of_passes lib fun step hstep => hpass step (Or.inr hstep)
  cases vendor with
  | none =>
    have hresult : buildVorbisCommentBlock lib none entries forceCreate =
        .ok (some (.vorbisComment (utf8 lib.vendor) comments)) := by
      rw [buildVorbisCommentBlock, if_neg h]
      simp only [hcomments, bind, Except.bind]
    exact ⟨_, by rw [vorbisCommentBuilder, hresult]; rfl, hresult⟩
  | some vendor =>
    have hset : lib.setVendorString (nativeString vendor) = true :=
      hpass (.native .vorbiscommentSetVendorString _) (Or.inl (by simp [setVendor]))
    have hresult : buildVorbisCommentBlock lib (some vendor) entries forceCreate =
        .ok (some (.vorbisComment (nativeString vendor) comments)) := by
      rw [buildVorbisCommentBlock, if_neg h]
      simp only [hset, hcomments, bind, Except.bind, if_true]
    exact ⟨_, by rw [vorbisCommentBuilder, hresult]; rfl, hresult⟩

/-! ## Pictures, application data, padding and unknown blocks -/

/-- `build_picture_block`. -/
def pictureBuilder (picture : FlacPicture) : Builder where
  before :=
    methodIDs ["getType", "getMimeType", "getDescription", "getWidth", "getHeight", "getDepth",
      "getColors", "getData"] ++
    getters ["getType", "getWidth", "getHeight", "getDepth", "getColors", "getMimeType",
      "getDescription", "getData"]
  new := .objectNew
  inside :=
    jstringToUtf8 picture.mimeType ++ jstringToUtf8 picture.description ++
    copyByteArray picture.data ++
    [.native .pictureSetMimeType true, .native .pictureSetDescription true,
      .native .pictureSetData true]
  content := some (buildPictureBlock picture)

theorem pictureBuilder_builds (picture : FlacPicture) :
    (pictureBuilder picture).Builds (.ok (some (buildPictureBlock picture))) :=
  fun _ => ⟨_, rfl, rfl⟩

/-- `build_application_block`. -/
def applicationBuilder (application : FlacApplicationBlock) : Builder where
  before := methodIDs ["getId", "getData"] ++ getters ["getId", "getData"]
  new := .objectNew
  inside :=
    [.jni .getByteArrayRegion] ++ copyByteArray application.data ++
    [.native .applicationSetData true]
  content := some (buildApplicationBlock application)

theorem applicationBuilder_builds (application : FlacApplicationBlock) :
    (applicationBuilder application).Builds (.ok (some (buildApplicationBlock application))) :=
  fun _ => ⟨_, rfl, rfl⟩

/-- `build_padding_block`. -/
def paddingBuilder (padding : FlacPaddingBlock) : Builder where
  before :=
    methodIDs ["getLength"] ++ getters ["getLength"] ++ [.ensure (buildPaddingBlock padding)]
  new := .objectNew
  inside := []
  content := (buildPaddingBlock padding).toOption

theorem paddingBuilder_builds (padding : FlacPaddingBlock) :
    (paddingBuilder padding).Builds ((buildPaddingBlock padding).map some) :=
  Builder.builds_of_ensure rfl (by simp [paddingBuilder])

/-- `build_unknown_metadata_block`, which clones a block on the stack. -/
def unknownMetadataBuilder (unknown : FlacUnknownMetadataBlock) : Builder where
  before :=
    methodIDs ["getType", "getData"] ++ getters ["getType", "getData"] ++
    [.ensure (buildUnknownMetadataBlock unknown)] ++
    if unknown.data = [] then [] else [.native .getByteArrayElements true]
  new := .objectClone
  inside := []
  content := (buildUnknownMetadataBlock unknown).toOption

theorem unknownMetadataBuilder_builds (unknown : FlacUnknownMetadataBlock) :
    (unknownMetadataBuilder unknown).Builds ((buildUnknownMetadataBlock unknown).map some) :=
  Builder.builds_of_ensure rfl (by simp [unknownMetadataBuilder])

/-! ## Seek tables and cue sheets -/

/-- `build_seek_table_block`. -/
def seekTableBuilder (table : FlacSeekTable) : Builder where
  before :=
    methodIDs ["getPoints"] ++ [.jni (.findClass "java/util/List")] ++ methodIDs ["size", "get"] ++
    [.jni (.findClass "org/zzvsjs/jflac/FlacSeekPoint")] ++
    methodIDs ["getSampleNumber", "getStreamOffset", "getFrameSamples"] ++
    getters ["getPoints", "size"]
  new := .objectNew
  inside :=
    [.native .seektableResizePoints true] ++
    table.points.flatMap (fun _ =>
      getters ["get", "getSampleNumber", "getStreamOffset", "getFrameSamples"]) ++
    [.ensure (buildSeekTableBlock lib table)]
  content := (buildSeekTableBlock lib table).toOption

theorem seekTableBuilder_builds (table : FlacSeekTable) :
    (seekTableBuilder lib table).Builds ((buildSeekTableBlock lib table).map some) :=
  Builder.builds_of_ensure rfl (by simp [seekTableBuilder])

/-- The steps of `fill_cue_sheet_track`; its only check is that of the ISRC. -/
def fillTrack (track : FlacCueSheetTrack) : List Step :=
  methodIDs ["getOffset", "getNumber", "getIsrc", "getType", "getPreEmphasis", "getIndices"] ++
  getters ["getOffset", "getNumber", "getIsrc", "getType", "getPreEmphasis", "getIndices"] ++
  jstringToUtf8 track.isrc ++
  [.jni (.findClass "java/util/List"), .jni (.findClass "org/zzvsjs/jflac/FlacCueSheetIndex")] ++
  methodIDs ["size", "get", "getOffset", "getNumber"] ++ getters ["size"] ++
  [.native .cuesheetTrackResizeIndices true, .ensure (fillCueSheetTrack track)] ++
  track.indices.flatMap fun _ => getters ["get", "getOffset", "getNumber"]

/-- The check of the media catalog number. -/
def ensureCatalogNumber (sheet : FlacCueSheet) : Build Unit :=
  match copyFixedAsciiField 128 (nativeString sheet.mediaCatalogNumber) with
  | none =>
    .error (some (.illegalArgumentException "CUESHEET media catalog number is too long."))
  | some _ => .ok ()

/-- `build_cue_sheet_block`. Behind the tracks only the legality check can still fail. -/
def cueSheetBuilder (sheet : FlacCueSheet) : Builder where
  before :=
    methodIDs ["getMediaCatalogNumber", "getLeadIn", "isCd", "getTracks"] ++
    getters ["getMediaCatalogNumber", "getLeadIn", "isCd", "getTracks"] ++
    jstringToUtf8 sheet.mediaCatalogNumber ++ [.jni (.findClass "java/util/List")] ++
    methodIDs ["size", "get"] ++ getters ["size"]
  new := .objectNew
  inside :=
    [.check (ensureCatalogNumber sheet), .native .cuesheetResizeTracks true] ++
    sheet.tracks.flatMap (fun track =>
      [.jni .pushLocalFrame, .jni (.callMethod "get")] ++ fillTrack track) ++
    [.ensure (buildCueSheetBlock lib sheet)]
  content := (buildCueSheetBlock lib sheet).toOption

theorem cueSheetBuilder_builds (sheet : FlacCueSheet) :
    (cueSheetBuilder lib sheet).Builds ((buildCueSheetBlock lib sheet).map some) :=
  Builder.builds_of_ensure rfl (by simp [cueSheetBuilder])

/-! ## Ordered blocks -/

/-- `build_vorbis_comment_transport_block` behind its check of the class. -/
def vorbisCommentTransportBuilder (comment : FlacVorbisComment) : Builder :=
  (vorbisCommentBuilder lib (some comment.vendor) (flattenGroups comment.comments.entries)
    true).behind (methodIDs ["getVendor", "getEntries"] ++ getters ["getVendor", "getEntries"])

/-- `ensure_instance_of`: the values have the classes of their types. -/
def ensureInstanceOf (className : String) : List Step := [.jni (.findClass className)]

/-- The `switch` of `build_ordered_metadata_block`. -/
def orderedBuilder : FlacMetadataBlock → Builder
  | .padding padding =>
    (paddingBuilder padding).behind (ensureInstanceOf "org/zzvsjs/jflac/FlacPaddingBlock")
  | .application application =>
    (applicationBuilder application).behind
      (ensureInstanceOf "org/zzvsjs/jflac/FlacApplicationBlock")
  | .seekTable table =>
    (seekTableBuilder lib table).behind (ensureInstanceOf "org/zzvsjs/jflac/FlacSeekTable")
  | .vorbisComment comment =>
    (vorbisCommentTransportBuilder lib comment).behind
      (ensureInstanceOf "org/zzvsjs/jflac/internal/NativeVorbisCommentBlock")
  | .cueSheet sheet =>
    (cueSheetBuilder lib sheet).behind (ensureInstanceOf "org/zzvsjs/jflac/FlacCueSheet")
  | .picture picture =>
    (pictureBuilder picture).behind (ensureInstanceOf "org/zzvsjs/jflac/FlacPicture")
  | .unknown unknown =>
    (unknownMetadataBuilder unknown).behind
      (ensureInstanceOf "org/zzvsjs/jflac/FlacUnknownMetadataBlock")

/-- Each builder makes the block that is computed for its model. -/
theorem orderedBuilder_builds (block : FlacMetadataBlock) :
    (orderedBuilder lib block).Builds (buildBlock lib block) := by
  cases block with
  | vorbisComment comment =>
    exact ((vorbisCommentBuilder_builds lib _ _ true (by simp)).behind _).behind _
  | picture picture => exact (pictureBuilder_builds picture).behind _
  | application application => exact (applicationBuilder_builds application).behind _
  | seekTable table => exact (seekTableBuilder_builds lib table).behind _
  | cueSheet sheet => exact (cueSheetBuilder_builds lib sheet).behind _
  | padding padding => exact (paddingBuilder_builds padding).behind _
  | unknown unknown => exact (unknownMetadataBuilder_builds unknown).behind _

end JFlac.Metadata
