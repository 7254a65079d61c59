import Inherent.Native.DocumentDeletion
import Inherent.Native.WorkspaceStats

/-!
# The documents of a workspace

A workspace over its history: documents are uploaded, uploaded again, refreshed and deleted,
one operation after the other, and each of them completes.
-/

namespace Inherent

/-- An ingestion: the reset of the row by an upload or a refresh (a start through the
    ingestion service's own API has none) and the run that follows. -/
structure Ingestion where
  reset : Option ResetCall := none
  run : UploadRun
  claimedAt : Timestamp
  markedAt : Timestamp
  storedAt : Timestamp
  tenantId : Option Nat := none
  textLength : Nat
  processingTimeMs : Nat := 0
  batch : StagedBatch

namespace Ingestion

/-- The id of the document. -/
def documentId (i : Ingestion) : String := i.run.input.documentId

/-- The input of the stores. -/
def storeInput (i : Ingestion) : StoreDocumentInput :=
  i.run.input.storeInput {
    workflowRunId := i.run.workflowRunId
    tenantId := i.tenantId
    textLength := i.textLength
    processingTimeMs := i.processingTimeMs }

/-- The document when the run comes to its stores. -/
def prepare (i : Ingestion) (doc : Option Document) : Option Document :=
  let doc := match i.reset with
    | some call => some (createOrResetPendingDocument call doc)
    | none => doc
  let doc := (createPendingDocument (i.run.pendingCall i.claimedAt) doc).1
  let marked : StatusCall :=
    { now := i.markedAt
      status := .processing
      workflowRunId := some i.run.workflowRunId }
  (updateDocumentStatus marked doc).1

/-- The document after the PostgreSQL store, and its output. -/
def store (i : Ingestion) (doc : Option Document) : Option Document × StoreDocumentOutput :=
  storeInPostgresql i.storeInput i.storedAt i.batch.chunks (i.prepare doc)

/-- The input of `update_workspace_stats`. -/
def statsInput (i : Ingestion) : UpdateStatsInput where
  workspaceId := i.run.input.workspaceId
  documentDelta := 1
  chunkDelta := i.batch.chunks.length
  sizeDelta := i.run.input.sizeBytes
  workflowRunId := some i.run.workflowRunId
  documentId := some i.run.input.documentId

/-- The ingestion is one of the workspace, and its reset is of the same document. -/
def isOf (i : Ingestion) (workspaceId : String) : Bool :=
  i.run.input.workspaceId = workspaceId &&
    i.reset.all fun call => call.workspaceId = workspaceId && call.documentId = i.documentId

end Ingestion

/-- The documents of a workspace and its counters. -/
structure Workspace where
  workspaceId : String
  documents : UniqueTable Document.documentId := .empty
  tables : StatsTables := {}

/-- An operation on the workspace. -/
inductive WorkspaceEvent where
  | ingest (i : Ingestion)
  /-- `DELETE /v1/documents/{id}`. -/
  | delete (documentId : String)

namespace Workspace

/-- One operation that completes.  Each ingestion is a new run. -/
def step (s : Workspace) : WorkspaceEvent → Option Workspace
  | .ingest i =>
    if i.isOf s.workspaceId ∧ ¬ s.tables.ledger.Holds i.run.workflowRunId then
      match i.store (s.documents.find? i.documentId) with
      | (some d, output) =>
        if output.success then
          some { s with
            documents := s.documents.put d
            tables := (updateWorkspaceStats i.statsInput s.tables).1 }
        else none
      | (none, _) => none
    else none
  | .delete documentId =>
    match s.documents.find? documentId with
    | some d =>
      if d.row.workspaceId = s.workspaceId then
        some { s with
          documents := s.documents.erase documentId
          tables := { s.tables with
            metadata := s.tables.metadata.map fun m =>
              m.removeDocument d.row.chunkCount d.row.sizeBytes } }
      else none
    | none => none

end Workspace

end Inherent
