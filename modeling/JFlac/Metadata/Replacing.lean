import JFlac.Lib.Cursor
import JFlac.Metadata.Builders

/-!
# Replacing the blocks of a chain

`writeMetadata` with the ownership of every native block: the blocks of an edit are built into a
table, move to the chain one at a time and are deleted from the table where a step fails. A built
block is known by its number in the order of the allocations.
-/

namespace JFlac.Metadata.Native

open JFlac.Lib (Cursor)

variable (faults : Faults) (lib : LibFlacMetadata)

/-- The environment of an edit: the steps with their outcomes, the pending exception, the blocks
ever built with what they hold, those deleted, the slots of `metadata_context` and the chains given
to `metadata_chain_write`. -/
structure Context where
  trace : List (Step × Bool)
  pending : Option Throwable
  created : List (Option StreamMetadata)
  deleted : List ℕ
  metadataBlocks : List (Option ℕ)
  writes : List (List (Option StreamMetadata))

/-- `memset` on the context of the edit. -/
def Context.empty : Context := ⟨[], none, [], [], [], []⟩

/-- A block of the chain: one that was read or one that was built. -/
inductive Node where
  | read (block : StreamMetadata)
  | built (id : ℕ)

/-- The blocks among the nodes that were built. -/
def builtIds (chain : List Node) : List ℕ :=
  chain.filterMap fun
    | .read _ => none
    | .built id => some id

/-! ## Steps -/

/-- One step, recorded with its outcome. -/
def Context.step (s : Context) (step : Step) : Bool × Context :=
  match step.run faults s.trace.length with
  | .ok () => (true, { s with trace := s.trace ++ [(step, true)] })
  | .error exception =>
    (false, { s with trace := s.trace ++ [(step, false)], pending := exception.or s.pending })

/-- Steps up to the first that fails. -/
def runSteps : List Step → Context → Bool × Context
  | [], s => (true, s)
  | step :: steps, s =>
    match s.step faults step with
    | (true, s) => runSteps steps s
    | (false, s) => (false, s)

/-- `ThrowNew`. -/
def Context.throwNew (exception : Throwable) (s : Context) : Context :=
  { s with pending := some exception }

/-- `throw_metadata_edit_exception`. -/
def Context.throwMetadataEditException (message : String) (s : Context) : Context :=
  s.throwNew (.flacMetadataEditException message)

/-- `throw_metadata_chain_edit_exception`. -/
def Context.throwMetadataChainEditException (action : String) (s : Context) : Context :=
  s.throwMetadataEditException (action ++ ": " ++ faults.chainStatus s.trace.length ++ ".")

/-- The exception for a failure that left none. -/
def Context.throwUnlessPending (message : String) (s : Context) : Context :=
  if s.pending.isSome then s else s.throwMetadataEditException message

/-! ## Blocks and slots -/

/-- What a built block holds. -/
def Context.block (s : Context) (id : ℕ) : Option StreamMetadata := s.created[id]?.join

/-- `metadata_object_delete`. -/
def Context.delete (id : ℕ) (s : Context) : Context := { s with deleted := s.deleted ++ [id] }

/-- A write to one slot. -/
def Context.setSlot (index : ℕ) (slot : Option ℕ) (s : Context) : Context :=
  { s with metadataBlocks := s.metadataBlocks.set index slot }

/-- `calloc` of the slots. -/
def Context.allocate (count : ℕ) (s : Context) : Context :=
  { s with metadataBlocks := List.replicate count none }

/-- `destroy_metadata_blocks`. -/
def Context.destroyMetadataBlocks (s : Context) : Context :=
  { s with deleted := s.deleted ++ s.metadataBlocks.reduceOption, metadataBlocks := [] }

/-- The call of a builder: the block that it publishes. -/
def runBuilder (builder : Builder) (s : Context) : Option ℕ × Context :=
  match runSteps faults (builder.before ++ [.native builder.new true]) s with
  | (false, s) => (none, s)
  | (true, s) =>
    let id := s.created.length
    match runSteps faults builder.inside { s with created := s.created ++ [builder.content] } with
    | (false, s) => (none, s.delete id)
    | (true, s) => (some id, s)

/-- `ensure_metadata_block_length_fits` for a block that was published. -/
def lengthFits (id : ℕ) (s : Context) : Step := .ensure (ensureMetadataBlockLengthFits (s.block id))

/-! ## Grouped blocks -/

/-- `build_metadata_array_blocks`; the result is the next index. A block that is too long stays in
its slot. -/
def buildMetadataArrayBlocks {α : Type} (builder : α → Builder) :
    List α → ℕ → Context → Option ℕ × Context
  | [], index, s => (some index, s)
  | value :: values, index, s =>
    match runSteps faults [.jni .pushLocalFrame, .jni .getObjectArrayElement] s with
    | (false, s) => (none, s)
    | (true, s) =>
      match runBuilder faults (builder value) s with
      | (none, s) => (none, s)
      | (some id, s) =>
        match (s.setSlot index (some id)).step faults (lengthFits id s) with
        | (false, s) => (none, s)
        | (true, s) => buildMetadataArrayBlocks builder values (index + 1) s

/-- The comment block of `build_metadata_blocks`. -/
def buildCommentSlot (entries : List Text) (s : Context) : Option ℕ × Context :=
  if entries = [] then (some 0, s)
  else
    match runBuilder faults (vorbisCommentBuilder lib none entries false) s with
    | (none, s) => (none, s)
    | (some id, s) =>
      match (s.setSlot 0 (some id)).step faults (lengthFits id s) with
      | (false, s) => (none, s)
      | (true, s) => (some 1, s)

/-- The blocks of one array behind those that were built. -/
def thenArray {α : Type} (builder : α → Builder) (values : List α) :
    Option ℕ × Context → Option ℕ × Context
  | (none, s) => (none, s)
  | (some index, s) => buildMetadataArrayBlocks faults builder values index s

/-- The arrays of `build_metadata_blocks` in their order. -/
def buildArrays (metadata : FlacEncodingMetadata) (s : Context) : Option ℕ × Context :=
  thenArray faults unknownMetadataBuilder metadata.unknownBlocks <|
  thenArray faults paddingBuilder metadata.paddingBlocks <|
  thenArray faults (cueSheetBuilder lib) metadata.cueSheets <|
  thenArray faults (seekTableBuilder lib) metadata.seekTables <|
  thenArray faults applicationBuilder metadata.applicationBlocks <|
  thenArray faults pictureBuilder metadata.pictures <|
  buildCommentSlot faults lib (flattenGroups metadata.comments.entries) s

/-- The guard of `build_metadata_blocks`. -/
def ensureBlockCount (count : ℕ) : Build Unit :=
  if uint32Max < count then
    .error (some (.flacEncodeException "Too many FLAC metadata blocks were requested."))
  else .ok ()

/-- `build_metadata_blocks`. -/
def buildMetadataBlocks (metadata : FlacEncodingMetadata) (s : Context) : Bool × Context :=
  match s.step faults (.check (ensureBlockCount (totalBlocks metadata))) with
  | (false, s) => (false, s)
  | (true, s) =>
    if totalBlocks metadata = 0 then (true, s)
    else
      match s.step faults (.native .calloc true) with
      | (false, s) => (false, s)
      | (true, s) =>
        match buildArrays faults lib metadata (s.allocate (totalBlocks metadata)) with
        | (none, s) => (false, s.destroyMetadataBlocks)
        | (some _, s) => (true, s)

/-! ## Ordered blocks -/

/-- `build_ordered_metadata_block`; a block that is too long is deleted here and leaves no slot. -/
def buildOrderedMetadataBlock (block : FlacMetadataBlock) (index : ℕ) (s : Context) :
    Bool × Context :=
  match runBuilder faults (orderedBuilder lib block) s with
  | (none, s) => (false, s)
  | (some id, s) =>
    match (s.setSlot index (some id)).step faults (lengthFits id s) with
    | (false, s) => (false, (s.delete id).setSlot index none)
    | (true, s) => (true, s)

/-- The loop of `build_ordered_metadata_blocks`. -/
def buildOrderedSlots : List FlacMetadataBlock → ℕ → Context → Bool × Context
  | [], _, s => (true, s)
  | block :: blocks, index, s =>
    match runSteps faults
        [.jni .pushLocalFrame, .jni .getIntArrayRegion, .jni .getObjectArrayElement] s with
    | (false, s) => (false, s.destroyMetadataBlocks)
    | (true, s) =>
      match buildOrderedMetadataBlock faults lib block index s with
      | (false, s) => (false, s.destroyMetadataBlocks)
      | (true, s) => buildOrderedSlots blocks (index + 1) s

/-- `build_ordered_metadata_blocks`. -/
def buildOrderedMetadataBlocks (blocks : List FlacMetadataBlock) (s : Context) : Bool × Context :=
  match s.step faults (.native .calloc true) with
  | (false, s) => (false, s)
  | (true, s) => buildOrderedSlots faults lib blocks 0 (s.allocate blocks.length)

/-- The builders of one request: a list of blocks wins over the grouped fields. -/
def buildRequest (metadata : FlacEncodingMetadata) (s : Context) : Bool × Context :=
  if metadata.blocks ≠ [] then buildOrderedMetadataBlocks faults lib metadata.blocks s
  else buildMetadataBlocks faults lib metadata s

/-! ## The chain -/

/-- The loop that deletes what follows the first block; `fuel` bounds the blocks of the chain. -/
def deleteBlocks : ℕ → Cursor Node → Context → Bool × Cursor Node × Context
  | 0, iterator, s => (true, iterator, s)
  | fuel + 1, iterator, s =>
    match iterator.next with
    | none => (true, iterator, s)
    | some current =>
      match s.step faults (.native .iteratorDeleteBlock current.delete.isSome) with
      | (false, s) => (false, current, s)
      | (true, s) => deleteBlocks fuel (current.delete.getD current) s

/-- The loop over the slots that inserts their blocks and clears them. -/
def insertBlocks : List (Option ℕ) → ℕ → Cursor Node → Context → Bool × Cursor Node × Context
  | [], _, iterator, s => (true, iterator, s)
  | none :: slots, index, iterator, s => insertBlocks slots (index + 1) iterator s
  | some id :: slots, index, iterator, s =>
    match s.step faults (.native .iteratorInsertBlockAfter true) with
    | (false, s) => (false, iterator, s)
    | (true, s) =>
      insertBlocks slots (index + 1) (iterator.insertAfter (.built id)) (s.setSlot index none)

/-- What a node of the chain holds. -/
def Context.content (s : Context) : Node → Option StreamMetadata
  | .read block => some block
  | .built id => s.block id

/-- `metadata_chain_write`. -/
def chainWrite (chain : List Node) (s : Context) : Bool × Context :=
  { s with writes := s.writes ++ [chain.map s.content] }.step faults (.native .chainWrite true)

/-! ## `writeMetadata` -/

/-- An edit when it returns: the environment, and the blocks that the chain owned when
`metadata_chain_delete` released it. -/
structure Edited where
  context : Context
  chain : List Node

/-- From the insertion to the end. -/
def insertAndWrite (iterator : Cursor Node) (s : Context) : Edited :=
  match insertBlocks faults s.metadataBlocks 0 iterator.rewind s with
  | (false, iterator, s) =>
    ⟨s.destroyMetadataBlocks.throwMetadataChainEditException faults
      "Failed to insert FLAC metadata edit block", iterator.toList⟩
  | (true, iterator, s) =>
    match chainWrite faults iterator.toList s.destroyMetadataBlocks with
    | (false, s) =>
      ⟨s.throwMetadataChainEditException faults "Failed to write FLAC metadata edits",
        iterator.toList⟩
    | (true, s) => ⟨s, iterator.toList⟩

/-- The methods of the request, in the order in which they are looked up and called. -/
def requestGetters : List String :=
  ["getCommentEntries", "getPictures", "getApplicationBlocks", "getSeekTables", "getCueSheets",
    "getPaddingBlocks", "getUnknownBlocks", "getMetadataBlockTypes", "getMetadataBlockValues"]

/-- From the request to the end, at a chain whose old blocks are deleted. -/
def buildAndInsert (metadata : FlacEncodingMetadata) (iterator : Cursor Node) (s : Context) :
    Edited :=
  match runSteps faults (methodIDs requestGetters ++ getters requestGetters) s with
  | (false, s) => ⟨s, iterator.toList⟩
  | (true, s) =>
    match buildRequest faults lib metadata s with
    | (false, s) =>
      ⟨s.destroyMetadataBlocks.throwUnlessPending "Failed to build FLAC metadata edit blocks.",
        iterator.toList⟩
    | (true, s) => insertAndWrite faults iterator s

/-- The edit of a chain that was read. -/
def editChain (old : List StreamMetadata) (metadata : FlacEncodingMetadata) (s : Context) :
    Edited :=
  match old with
  | .streamInfo info :: rest =>
    match deleteBlocks faults rest.length ⟨[], .read (.streamInfo info), rest.map .read⟩ s with
    | (false, iterator, s) =>
      ⟨s.throwMetadataChainEditException faults "Failed to delete existing FLAC metadata block",
        iterator.toList⟩
    | (true, iterator, s) => buildAndInsert faults lib metadata iterator s
  | _ =>
    ⟨s.throwMetadataEditException
      "FLAC file does not contain a leading STREAMINFO metadata block.", old.map .read⟩

/-- The chain and its iterator, with the exception that a failure throws. -/
def openChain (path : Text) (s : Context) : Bool × Context :=
  match runSteps faults (jstringToUtf8 path) s with
  | (false, s) => (false, s.throwUnlessPending "Failed to encode file path to UTF-8.")
  | (true, s) =>
    match s.step faults (.native .chainNew true) with
    | (false, s) => (false, s.throwMetadataEditException "Failed to allocate FLAC metadata chain.")
    | (true, s) =>
      match s.step faults (.native .chainRead true) with
      | (false, s) =>
        (false, s.throwMetadataChainEditException faults "Failed to read FLAC metadata for editing")
      | (true, s) =>
        match s.step faults (.native .iteratorNew true) with
        | (false, s) =>
          (false, s.throwMetadataEditException "Failed to allocate FLAC metadata iterator.")
        | (true, s) => (true, s)

/-- `writeMetadata` for a file whose chain is `old`, when the API is loaded and neither argument is
null. -/
def writeMetadata (path : Text) (old : List StreamMetadata) (metadata : FlacEncodingMetadata) :
    Edited :=
  match openChain faults path Context.empty with
  | (false, s) => ⟨s, []⟩
  | (true, s) => editChain faults lib old metadata s

end JFlac.Metadata.Native
