import Inherent.Native.Document

/-!
# The database services

What the ingestion service's `DatabaseService` and the public API's
`DatabaseService` do to one document.  Every statement of these functions is
restricted to one `document_id`, so each is a function of that document, `none`
when `processed_documents` has no row for it.  A function's body is one
transaction.

The functions that also bump `workspace_metadata` leave that table out here: it
holds nothing that a document's own rows are computed from.
-/

namespace Inherent

/-! ## Fencing -/

/-- The fencing predicate of the `WHERE` clauses and of `is_active_run`:
    `active_run_id IS NULL OR active_run_id = workflow_run_id`. -/
def ProcessedDocument.permits (row : ProcessedDocument) (workflowRunId : RunId) : Prop :=
  row.activeRunId = none ∨ row.activeRunId = some workflowRunId

instance (row : ProcessedDocument) (workflowRunId : RunId) :
    Decidable (row.permits workflowRunId) :=
  inferInstanceAs (Decidable (_ ∨ _))

/-- `is_active_run`: no row, an unclaimed row and the run's own row permit a write. -/
def isActiveRun (workflowRunId : RunId) (doc : Option Document) : Prop :=
  ∀ d ∈ doc, d.row.permits workflowRunId

instance (workflowRunId : RunId) (doc : Option Document) :
    Decidable (isActiveRun workflowRunId doc) :=
  match doc with
  | none => isTrue (by simp [isActiveRun])
  | some d => decidable_of_iff (d.row.permits workflowRunId) (by simp [isActiveRun])

/-! ## `store_processed_document` -/

/-- The arguments of `store_processed_document`, with the `now` it reads first. -/
structure StoreCall where
  now : Timestamp
  message : DocumentUploadMessage
  chunks : List DocumentChunk
  textLength : Nat
  processingTimeMs : Nat
  workflowRunId : RunId
  tenantId : Option Nat := none
  append : Bool := false
  documentType : String := "file"
  externalId : Option String := none
  metadata : Option ConversationMetadata := none
  deriving DecidableEq, Repr

/-- `StoreProcessedDocumentInfo`: whether the upsert inserted the row. -/
structure StoreInfo where
  rowWasInserted : Bool
  deriving DecidableEq, Repr

namespace StoreCall

/-- The row of the `INSERT` (`insert_values`).  `chunk_count` and `text_length`
    start at zero for an append; `size_bytes` does not, as its `CHECK` forbids a
    zero. -/
def insertValues (c : StoreCall) : ProcessedDocument where
  documentId := c.message.documentId
  workspaceId := c.message.workspaceId
  userId := c.message.userId
  uploadedBy := c.message.uploadedBy
  tenantId := c.tenantId
  filename := c.message.filename
  originalFilename := c.message.originalFilename
  contentType := c.message.contentType
  sizeBytes := c.message.sizeBytes
  storageBackend := c.message.storageBackend
  storagePath := c.message.storagePath
  storageBucket := c.message.storageBucket
  storageUrl := c.message.storageUrl
  sourceUrl := c.message.sourceUrl
  status := .processed
  chunkCount := if c.append then 0 else c.chunks.length
  textLength := if c.append then 0 else c.textLength
  processingTimeMs := c.processingTimeMs
  activeRunId := some c.workflowRunId
  createdAt := c.now
  updatedAt := c.now
  processedAt := some c.now
  documentType := c.documentType
  externalId := c.externalId
  metadata := c.metadata

/-- The `DO UPDATE SET` of the upsert (`update_set`).  The three counters are set
    only when the call replaces the document. -/
def updateSet (c : StoreCall) (row : ProcessedDocument) : ProcessedDocument :=
  { row with
    status := .processed
    processingTimeMs := c.processingTimeMs
    tenantId := c.tenantId
    activeRunId := some c.workflowRunId
    updatedAt := c.now
    processedAt := some c.now
    errorMessage := none
    documentType := c.documentType
    externalId := c.externalId
    chunkCount := if c.append then row.chunkCount else c.chunks.length
    textLength := if c.append then row.textLength else c.textLength
    sizeBytes := if c.append then row.sizeBytes else c.message.sizeBytes
    metadata := c.metadata.or row.metadata }

/-- One row of `chunk_values`. -/
def chunkRow (c : StoreCall) (chunk : DocumentChunk) : ChunkRow where
  documentId := c.message.documentId
  workspaceId := c.message.workspaceId
  tenantId := c.tenantId
  chunkIndex := chunk.chunkIndex
  content := chunk.content
  tokenCount := chunk.tokenCount.getD (estimateTokens chunk.content)
  startChar := chunk.startChar
  endChar := chunk.endChar
  metadata := chunk.metadata
  contentHash := ⟨chunk.content⟩
  -- `message.storage_path or message.storage_url`
  sourceUri := if c.message.storagePath = "" then c.message.storageUrl
    else some c.message.storagePath
  sourceUrl := c.message.sourceUrl
  createdAt := c.now
  ingestedAt := c.now

/-- `chunk_values`. -/
def chunkValues (c : StoreCall) : List ChunkRow := c.chunks.map c.chunkRow

/-- The `UPDATE` after the chunk insert of an append: the counters grow by what the
    insert added, and `size_bytes` only when the row was there before this call. -/
def grow (c : StoreCall) (rowWasInserted : Bool) (insertedChunkCount : Nat)
    (row : ProcessedDocument) : ProcessedDocument :=
  { row with
    chunkCount := row.chunkCount + insertedChunkCount
    textLength := row.textLength + c.textLength
    sizeBytes := if rowWasInserted then row.sizeBytes else row.sizeBytes + c.message.sizeBytes }

/-- Everything after the upsert: the delete of a replacing call, the chunk insert
    and the counter update of an append. -/
def writeChunks (c : StoreCall) (rowWasInserted : Bool) (d : Document) : Document :=
  let chunks := if c.append then d.chunks else .empty
  let insertedChunkCount := chunks.inserted c.chunkValues
  { row := if c.append ∧ insertedChunkCount ≠ 0 then c.grow rowWasInserted insertedChunkCount d.row
      else d.row
    chunks := chunks.insertAll c.chunkValues }

end StoreCall

/-- `store_processed_document`: the document after the call, and `none` when the
    write was fenced out. -/
def storeProcessedDocument (c : StoreCall) : Option Document → Option Document × Option StoreInfo
  | none => (some (c.writeChunks true ⟨c.insertValues, .empty⟩), some ⟨true⟩)
  | some d =>
    if d.row.permits c.workflowRunId then
      (some (c.writeChunks false { d with row := c.updateSet d.row }), some ⟨false⟩)
    else (some d, none)

/-- `get_document_chunk_count`. -/
def getDocumentChunkCount : Option Document → Nat
  | none => 0
  | some d => d.row.chunkCount

/-! ## `create_pending_document` -/

/-- The arguments of `create_pending_document`, with the `now` it reads first. -/
structure PendingCall where
  now : Timestamp
  documentId : String
  workspaceId : String
  userId : String
  filename : String
  originalFilename : String
  contentType : String
  sizeBytes : Nat
  storageBackend : String
  storagePath : String
  workflowRunId : RunId
  workflowStartTime : Timestamp
  storageBucket : Option String := none
  storageUrl : Option String := none
  uploadedBy : Option String := none
  deriving DecidableEq, Repr

namespace PendingCall

/-- The row of the `INSERT ... ON CONFLICT DO NOTHING`. -/
def insertValues (c : PendingCall) : ProcessedDocument where
  documentId := c.documentId
  workspaceId := c.workspaceId
  userId := c.userId
  uploadedBy := c.uploadedBy
  tenantId := none
  filename := c.filename
  originalFilename := c.originalFilename
  contentType := c.contentType
  sizeBytes := c.sizeBytes
  storageBackend := c.storageBackend
  storagePath := c.storagePath
  storageBucket := c.storageBucket
  storageUrl := c.storageUrl
  status := .processing
  chunkCount := 0
  activeRunId := some c.workflowRunId
  activeRunClaimedAt := some c.workflowStartTime
  createdAt := c.now
  updatedAt := c.now

/-- The claim `UPDATE` and its monotonic guard. -/
def claim (c : PendingCall) (row : ProcessedDocument) : ProcessedDocument :=
  if ∀ t ∈ row.activeRunClaimedAt, t ≤ c.workflowStartTime then
    { row with
      activeRunId := some c.workflowRunId
      activeRunClaimedAt := some c.workflowStartTime
      updatedAt := c.now }
  else row

end PendingCall

/-- `create_pending_document`: the document after the insert and the claim, and
    whether a row was created. -/
def createPendingDocument (c : PendingCall) : Option Document → Option Document × Bool
  | none => (some ⟨c.claim c.insertValues, .empty⟩, true)
  | some d => (some { d with row := c.claim d.row }, false)

/-! ## `update_document_status` -/

/-- The arguments of `update_document_status`, with the `now` it reads first. -/
structure StatusCall where
  now : Timestamp
  status : DocumentStatus
  errorMessage : Option String := none
  workflowRunId : Option RunId := none
  deriving DecidableEq, Repr

/-- The columns `update_document_status` sets. -/
def StatusCall.set (c : StatusCall) (row : ProcessedDocument) : ProcessedDocument :=
  { row with
    status := c.status
    errorMessage := c.errorMessage
    updatedAt := c.now
    processedAt := if c.status = .processed then some c.now else none }

/-- `update_document_status`: the document after the call, and whether a row was
    updated.  The fence applies only to a caller that gives a run id. -/
def updateDocumentStatus (c : StatusCall) : Option Document → Option Document × Bool
  | none => (none, false)
  | some d =>
    if ∀ r ∈ c.workflowRunId, d.row.permits r then (some { d with row := c.set d.row }, true)
    else (some d, false)

/-! ## The public API's chunk edits -/

/-- The arguments of `append_document_chunk`. -/
structure AppendChunkCall where
  now : Timestamp
  workspaceId : String
  content : String
  metadata : Option ChunkMetadata := none
  sourceUri : Option String := none
  deriving DecidableEq, Repr

/-- The row that `append_document_chunk` inserts at `next_index`. -/
def AppendChunkCall.chunkRow (c : AppendChunkCall) (parent : ProcessedDocument)
    (nextIndex : Nat) : ChunkRow where
  documentId := parent.documentId
  workspaceId := c.workspaceId
  tenantId := parent.tenantId
  chunkIndex := nextIndex
  content := c.content
  tokenCount := estimateTokens c.content
  metadata := c.metadata
  contentHash := ⟨c.content⟩
  sourceUri := c.sourceUri.or
    (if parent.storagePath = "" then parent.storageUrl else some parent.storagePath)
  createdAt := c.now
  ingestedAt := c.now

/-- `append_document_chunk`: one chunk at `max(chunk_index) + 1`, under the lock on
    the parent row.  `none` when the workspace has no such document. -/
def appendDocumentChunk (c : AppendChunkCall) : Option Document → Option Document × Option ChunkRow
  | none => (none, none)
  | some d =>
    if d.row.workspaceId = c.workspaceId then
      let row := c.chunkRow d.row d.chunks.nextIndex
      (some { row := { d.row with chunkCount := d.row.chunkCount + 1 }
              chunks := d.chunks.insertNew row }, some row)
    else (some d, none)

/-- `delete_document_chunk`: delete the chunk with the index, leaving a gap.  The
    result is the deleted row, `none` when there was none to delete. -/
def deleteDocumentChunk (workspaceId : String) (chunkIndex : Nat) :
    Option Document → Option Document × Option ChunkRow
  | none => (none, none)
  | some d =>
    if d.row.workspaceId = workspaceId then
      match d.chunks.find? chunkIndex with
      | none => (some d, none)
      | some row =>
        -- `GREATEST(chunk_count - 1, 0)` is the subtraction of `Nat`
        (some { row := { d.row with chunkCount := d.row.chunkCount - 1 }
                chunks := d.chunks.erase chunkIndex }, some row)
    else (some d, none)

/-! ## The public API's upload reset -/

/-- The arguments of `create_or_reset_pending_document`, with the `NOW()` of its
    statement.  Its callers pass no `metadata`. -/
structure ResetCall where
  now : Timestamp
  documentId : String
  workspaceId : String
  userId : String
  filename : String
  originalFilename : String
  contentType : String
  sizeBytes : Nat
  storageBackend : String
  storagePath : String
  storageBucket : Option String := none
  storageUrl : Option String := none
  contentHash : Option Sha256 := none
  metadata : Option ConversationMetadata := none
  uploadedBy : Option String := none
  deriving DecidableEq, Repr

/-- The row of the `INSERT`. -/
def ResetCall.insertValues (c : ResetCall) : ProcessedDocument where
  documentId := c.documentId
  workspaceId := c.workspaceId
  userId := c.userId
  uploadedBy := c.uploadedBy
  tenantId := none
  filename := c.filename
  originalFilename := c.originalFilename
  contentType := c.contentType
  sizeBytes := c.sizeBytes
  storageBackend := c.storageBackend
  storagePath := c.storagePath
  storageBucket := c.storageBucket
  storageUrl := c.storageUrl
  contentHash := c.contentHash
  status := .pending
  chunkCount := 0
  metadata := c.metadata
  createdAt := c.now
  updatedAt := c.now

/-- The `DO UPDATE SET` of the upsert. -/
def ResetCall.updateSet (c : ResetCall) (row : ProcessedDocument) : ProcessedDocument :=
  { row with
    workspaceId := c.workspaceId
    userId := c.userId
    uploadedBy := c.uploadedBy.or row.uploadedBy
    filename := c.filename
    originalFilename := c.originalFilename
    contentType := c.contentType
    sizeBytes := c.sizeBytes
    storageBackend := c.storageBackend
    storagePath := c.storagePath
    storageBucket := c.storageBucket
    storageUrl := c.storageUrl
    contentHash := c.contentHash.or row.contentHash
    status := .pending
    errorMessage := none
    chunkCount := 0
    metadata := c.metadata
    updatedAt := c.now }

/-- `create_or_reset_pending_document`. -/
def createOrResetPendingDocument (c : ResetCall) : Option Document → Document
  | none => ⟨c.insertValues, .empty⟩
  | some d => { d with row := c.updateSet d.row }

/-- `mark_document_failed` of the public API; `now` is the `NOW()` of its statement. -/
def markDocumentFailed (workspaceId errorMessage : String) (now : Timestamp) :
    Option Document → Option Document
  | none => none
  | some d =>
    if d.row.workspaceId = workspaceId then
      some { d with
        row := { d.row with
          status := .failed
          errorMessage := some errorMessage
          updatedAt := now } }
    else some d

end Inherent
