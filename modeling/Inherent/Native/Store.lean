import Inherent.Native.Database

/-!
# The store activities

What `store_in_postgresql` and `store_in_weaviate` make of the chunks that they read
from staging.  Staging holds the chunks of a workflow run under the run id alone; an
attempt of a store activity first reads them and writes to its store later.
-/

namespace Inherent

/-- A staged chunk: the dict that a chunking activity writes. -/
structure StagedChunk where
  documentId : String
  content : String
  chunkIndex : Nat
  startChar : Nat
  endChar : Nat
  tokenCount : Option Nat := none
  contentRisk : String := ""
  contentRiskReasons : List String := []
  chunkingStrategy : String := ""
  sectionHeading : String := ""
  tags : List (String × String) := []
  tagsWeaviate : List String := []
  turn : Option TurnAttribution := none
  deriving DecidableEq, Repr

/-- `_risk_metadata`: the metadata of a chunk, `None` when the staged chunk carries no
    signal. -/
def StagedChunk.riskMetadata (c : StagedChunk) : Option ChunkMetadata :=
  let risky := c.contentRisk ≠ "" ∧ c.contentRisk ≠ "none"
  let metadata : ChunkMetadata :=
    { contentRisk := if risky then some c.contentRisk else none
      contentRiskReasons := if risky then c.contentRiskReasons else []
      chunkingStrategy := if c.chunkingStrategy = "" then none else some c.chunkingStrategy
      sectionHeading := if c.sectionHeading = "" then none else some c.sectionHeading
      tags := c.tags
      tagsWeaviate := if c.tags = [] then [] else c.tagsWeaviate
      turn := c.turn }
  if metadata = {} then none else some metadata

/-- The `DocumentChunk` that both store activities build from a staged chunk. -/
def StagedChunk.toDocumentChunk (c : StagedChunk) : DocumentChunk where
  documentId := c.documentId
  content := c.content
  chunkIndex := c.chunkIndex
  startChar := c.startChar
  endChar := c.endChar
  tokenCount := c.tokenCount
  metadata := c.riskMetadata

/-- `StoreDocumentInput` (`temporal/models.py`). -/
structure StoreDocumentInput where
  workflowRunId : RunId
  documentId : String
  workspaceId : String
  userId : String
  filename : String
  originalFilename : String
  contentType : String
  sizeBytes : Nat
  storageBackend : String
  storagePath : String
  textLength : Nat
  processingTimeMs : Nat
  tenantId : Option Nat := none
  uploadedBy : Option String := none
  sourceUrl : Option String := none
  append : Bool := false
  documentType : String := "file"
  externalId : Option String := none
  metadata : Option ConversationMetadata := none
  deriving DecidableEq, Repr

/-- `StoreDocumentOutput` (`temporal/models.py`). -/
structure StoreDocumentOutput where
  success : Bool
  chunksStored : Nat
  error : Option String := none
  superseded : Bool := false
  documentRowInserted : Bool := false
  deriving DecidableEq, Repr

/-- The output of a store that its fence refused. -/
def StoreDocumentOutput.supersededByNewerRun : StoreDocumentOutput where
  success := false
  chunksStored := 0
  error := some "superseded_by_newer_workflow_run"
  superseded := true

namespace StoreDocumentInput

/-- The message-like object that `store_in_postgresql` hands to the database service. -/
def message (input : StoreDocumentInput) : DocumentUploadMessage where
  documentId := input.documentId
  workspaceId := input.workspaceId
  userId := input.userId
  uploadedBy := input.uploadedBy
  filename := input.filename
  originalFilename := input.originalFilename
  contentType := input.contentType
  sizeBytes := input.sizeBytes
  storageBackend := input.storageBackend
  storagePath := input.storagePath
  timestamp := ""
  sourceUrl := input.sourceUrl

/-- The call of `store_processed_document` that `store_in_postgresql` makes at time
    `now` with the chunks it read from staging. -/
def storeCall (input : StoreDocumentInput) (now : Timestamp) (staged : List StagedChunk) :
    StoreCall where
  now := now
  message := input.message
  chunks := staged.map StagedChunk.toDocumentChunk
  textLength := input.textLength
  processingTimeMs := input.processingTimeMs
  workflowRunId := input.workflowRunId
  tenantId := input.tenantId
  append := input.append
  documentType := input.documentType
  externalId := input.externalId
  metadata := input.metadata

end StoreDocumentInput

/-- The commit of a `store_in_postgresql` attempt that read `staged`, and its output. -/
def storeInPostgresql (input : StoreDocumentInput) (now : Timestamp) (staged : List StagedChunk)
    (doc : Option Document) : Option Document × StoreDocumentOutput :=
  match storeProcessedDocument (input.storeCall now staged) doc with
  | (doc', none) => (doc', .supersededByNewerRun)
  | (doc', some info) =>
    (doc', { success := true
             chunksStored := staged.length
             documentRowInserted := info.rowWasInserted })

/-- The two stores that a run writes in parallel. -/
inductive StoreTarget where
  | postgresql
  | weaviate
  deriving DecidableEq, Repr

/-- The Temporal activity type of a store. -/
def StoreTarget.activityType : StoreTarget → String
  | .postgresql => "store_in_postgresql"
  | .weaviate => "store_in_weaviate"

end Inherent

/-!
## The vector objects of a document

The objects that `store_chunks_with_tenant` writes to the user's tenant in Weaviate.
An object's id is computed from the workspace, the user, the document and the chunk index
(`chunk_object_uuid`), so within one document the chunk index is its key and a write goes
over the object that was there.  The embedding is a function of the content and is left out.
-/

namespace Inherent

/-- The properties of a chunk's object. -/
structure VectorObject where
  documentId : String
  workspaceId : String
  userId : String
  content : String
  chunkIndex : Nat
  startChar : Nat
  endChar : Nat
  originalFilename : String
  contentType : String
  createdAt : Timestamp
  contentHash : Sha256
  sourceUri : Option String
  sourceUrl : Option String
  ingestedAt : Timestamp
  contentRisk : String
  contentRiskReasons : List String
  chunkingStrategy : String
  tags : List String
  sectionHeading : String
  reuseCount : Nat
  turn : Option TurnAttribution
  deriving DecidableEq, Repr

/-- The objects of one document in its user's tenant. -/
abbrev ObjectTable := UniqueTable VectorObject.chunkIndex

/-- Python's `value or default` for a string that may be missing. -/
def orDefault (value : Option String) (default : String) : String :=
  match value with
  | none => default
  | some s => if s = "" then default else s

/-- The object that `store_chunks_with_tenant` writes for a chunk at `ingest_time`. -/
def StoreDocumentInput.vectorObject (input : StoreDocumentInput) (ingestTime : Timestamp)
    (chunk : DocumentChunk) : VectorObject :=
  -- `chunk.metadata or {}`
  let chunkMeta := chunk.metadata.getD {}
  { documentId := input.documentId
    workspaceId := input.workspaceId
    userId := input.userId
    content := chunk.content
    chunkIndex := chunk.chunkIndex
    startChar := chunk.startChar
    endChar := chunk.endChar
    originalFilename := input.originalFilename
    contentType := input.contentType
    createdAt := ingestTime
    contentHash := ⟨chunk.content⟩
    sourceUri := some input.storagePath
    sourceUrl := input.sourceUrl
    ingestedAt := ingestTime
    contentRisk := orDefault chunkMeta.contentRisk "none"
    contentRiskReasons := chunkMeta.contentRiskReasons
    chunkingStrategy := orDefault chunkMeta.chunkingStrategy ""
    tags := chunkMeta.tagsWeaviate
    sectionHeading := orDefault chunkMeta.sectionHeading ""
    reuseCount := 0
    turn := chunkMeta.turn.map fun t => { t with client := some (orDefault t.client "") } }

/-- The objects of the staged chunks, in order. -/
def StoreDocumentInput.vectorObjects (input : StoreDocumentInput) (ingestTime : Timestamp)
    (staged : List StagedChunk) : List VectorObject :=
  staged.map fun chunk => input.vectorObject ingestTime chunk.toDocumentChunk

/-- The batch write of `store_chunks_with_tenant`: `landed` says which objects Weaviate
    took.  It raises when there are `failed_objects`. -/
def storeChunksWithTenant (input : StoreDocumentInput) (ingestTime : Timestamp)
    (staged : List StagedChunk) (landed : List Bool) (objects : ObjectTable) : ObjectTable × Bool :=
  let batch := (input.vectorObjects ingestTime staged).zip landed
  let written := batch.filterMap fun p => if p.2 then some p.1 else none
  (objects.putAll written, written.length = staged.length)

end Inherent
