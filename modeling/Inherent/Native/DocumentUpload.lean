import Inherent.Native.DocumentIngestion

/-!
# Uploads of a document

Uploads of one document: `intake_document` resets the row and then publishes a
`document.uploaded` message; the queue hands each message to `trigger_workflow_async` at
least once, in any order, until it is acknowledged; each handling terminates the run that is
open and starts a new one.  The activities of a terminated run may go on.
-/

namespace Inherent

/-- An upload, once `intake_document` has stored the file under its key. -/
structure DocumentUpload where
  documentId : String
  workspaceId : String
  /-- `data_plane_user_id`. -/
  tenantUserId : String
  userId : String
  filename : String
  s3Key : String
  contentType : String
  sizeBytes : Nat
  bucket : String
  storageUrl : String
  contentHash : Sha256
  deriving DecidableEq, Repr

namespace DocumentUpload

/-- `s3_key.rsplit("/", 1)[-1]`. -/
def storedName (u : DocumentUpload) : String := String.ofList (PyStr.afterLast '/' u.s3Key.toList)

/-- The call of `create_or_reset_pending_document`. -/
def resetCall (u : DocumentUpload) (now : Timestamp) : ResetCall where
  now := now
  documentId := u.documentId
  workspaceId := u.workspaceId
  userId := u.tenantUserId
  filename := u.storedName
  originalFilename := u.filename
  contentType := u.contentType
  sizeBytes := u.sizeBytes
  storageBackend := "s3"
  storagePath := u.s3Key
  storageBucket := some u.bucket
  storageUrl := some u.storageUrl
  contentHash := some u.contentHash
  uploadedBy := some u.userId

/-- `mq_message`. -/
def message (u : DocumentUpload) (timestamp : String) : DocumentUploadMessage where
  documentId := u.documentId
  workspaceId := u.workspaceId
  userId := u.tenantUserId
  uploadedBy := some u.userId
  filename := u.storedName
  originalFilename := u.filename
  contentType := u.contentType
  sizeBytes := u.sizeBytes
  storageBackend := "s3"
  storagePath := u.s3Key
  storageBucket := some u.bucket
  storageUrl := some u.storageUrl
  timestamp := timestamp
  source := some "public-api"

end DocumentUpload

/-- What a run makes of a stored file: `fetch_document`, `extract_text` and `chunk_text`. -/
structure ExtractedDocument where
  batch : StagedBatch
  textLength : Nat

/-- The services that the trigger and the runs ask. -/
structure UploadConfig where
  resolveTenantUserId : String → String → String
  extract : DocumentIngestionInput → ExtractedDocument
  /-- `settings.workspace_vertical_packs`. -/
  workspaceVerticalPacks : String → Option String := fun _ => none

/-- `workflow_input` of `trigger_workflow_async`. -/
def UploadConfig.workflowInput (c : UploadConfig) (m : DocumentUploadMessage) :
    DocumentIngestionInput where
  documentId := m.documentId
  workspaceId := m.workspaceId
  userId := c.resolveTenantUserId m.workspaceId m.userId
  filename := m.filename
  originalFilename := m.originalFilename
  contentType := m.contentType
  sizeBytes := m.sizeBytes
  storageBackend := m.storageBackend
  storagePath := m.storagePath
  storageBucket := m.storageBucket
  storageUrl := m.storageUrl
  -- `upload_message.uploaded_by or upload_message.user_id`
  uploadedBy := some (orDefault m.uploadedBy m.userId)
  sourceUrl := m.sourceUrl
  timestamp := m.timestamp
  verticalPack := c.workspaceVerticalPacks m.workspaceId

/-- The close status of a run, if it is closed. -/
inductive UploadRunStatus where
  | running
  | terminated
  | completed
  | failed
  deriving DecidableEq, Repr

/-- A run that the trigger started for the message with the number `messageNo`. -/
structure UploadRun where
  messageNo : Nat
  input : DocumentIngestionInput
  workflowRunId : RunId
  startTime : Timestamp
  status : UploadRunStatus := .running
  /-- `store_in_postgresql` has returned success. -/
  stored : Bool := false
  deriving DecidableEq, Repr

namespace UploadRun

/-- `TERMINATE_EXISTING`. -/
def terminate (run : UploadRun) : UploadRun :=
  if run.status = .running then { run with status := .terminated } else run

/-- The call of `create_pending_document` by an attempt at time `now`. -/
def pendingCall (run : UploadRun) (now : Timestamp) : PendingCall where
  now := now
  documentId := run.input.documentId
  workspaceId := run.input.workspaceId
  userId := run.input.userId
  filename := run.input.filename
  originalFilename := run.input.originalFilename
  contentType := run.input.contentType
  sizeBytes := run.input.sizeBytes
  storageBackend := run.input.storageBackend
  storagePath := run.input.storagePath
  workflowRunId := run.workflowRunId
  workflowStartTime := run.startTime
  storageBucket := run.input.storageBucket
  storageUrl := run.input.storageUrl
  uploadedBy := run.input.uploadedBy

/-- The chunks of the run. -/
def batch (c : UploadConfig) (run : UploadRun) : StagedBatch := (c.extract run.input).batch

/-- The input of its stores. -/
def storeInput (c : UploadConfig) (run : UploadRun) (tenantId : Option Nat)
    (processingTimeMs : Nat) : StoreDocumentInput :=
  run.input.storeInput {
    workflowRunId := run.workflowRunId
    tenantId := tenantId
    textLength := (c.extract run.input).textLength
    processingTimeMs := processingTimeMs }

end UploadRun

/-- The document, the uploads between their reset and their message, the messages in the
    order of their publication, the numbers of those not acknowledged, and the runs in the
    order of their start. -/
structure UploadSystem where
  documentId : String
  doc : Option Document := none
  intake : List DocumentUpload := []
  messages : List DocumentUploadMessage := []
  pending : List Nat := []
  runs : List UploadRun := []

/-- What can happen. -/
inductive UploadEvent where
  /-- `intake_document` resets the row for the upload. -/
  | reset (u : DocumentUpload) (now : Timestamp)
  /-- It publishes the message of the `k`-th upload whose row is reset. -/
  | publish (k : Nat) (timestamp : String)
  /-- Publishing fails; the row is marked failed. -/
  | publishFailed (k : Nat) (now : Timestamp)
  /-- `trigger_workflow_async` handles the message with the number `i`.  The message stays
      pending when the acknowledgement is lost. -/
  | handle (i : Nat) (workflowRunId : RunId) (now : Timestamp) (acked : Bool)
  /-- An attempt of `create_pending_document` of the `k`-th run. -/
  | claim (k : Nat) (now : Timestamp)
  /-- An attempt of `set_document_status` of the `k`-th run. -/
  | setStatus (k : Nat) (status : DocumentStatus) (errorMessage : Option String) (now : Timestamp)
  /-- An attempt of `store_in_postgresql` of the `k`-th run commits. -/
  | commit (k : Nat) (now : Timestamp) (tenantId : Option Nat) (processingTimeMs : Nat)
  | complete (k : Nat)
  | fail (k : Nat)

namespace UploadSystem

/-- One event. -/
def step (c : UploadConfig) (s : UploadSystem) : UploadEvent → Option UploadSystem
  | .reset u now =>
    if u.documentId = s.documentId then
      some { s with
        doc := some (createOrResetPendingDocument (u.resetCall now) s.doc)
        intake := s.intake ++ [u] }
    else none
  | .publish k timestamp =>
    match s.intake[k]? with
    | some u =>
      some { s with
        intake := s.intake.eraseIdx k
        messages := s.messages ++ [u.message timestamp]
        pending := s.pending ++ [s.messages.length] }
    | none => none
  | .publishFailed k now =>
    match s.intake[k]? with
    | some u =>
      some { s with
        intake := s.intake.eraseIdx k
        doc := markDocumentFailed u.workspaceId "ingestion enqueue failed" now s.doc }
    | none => none
  | .handle i workflowRunId now acked =>
    match s.messages[i]? with
    | some m =>
      if i ∈ s.pending ∧ ∀ run ∈ s.runs, run.workflowRunId ≠ workflowRunId ∧ run.startTime ≤ now then
        let run : UploadRun :=
          { messageNo := i
            input := c.workflowInput m
            workflowRunId := workflowRunId
            startTime := now }
        some { s with
          runs := s.runs.map UploadRun.terminate ++ [run]
          pending := if acked then s.pending.erase i else s.pending }
      else none
    | none => none
  | .claim k now =>
    match s.runs[k]? with
    | some run => some { s with doc := (createPendingDocument (run.pendingCall now) s.doc).1 }
    | none => none
  | .setStatus k status errorMessage now =>
    match s.runs[k]? with
    | some run =>
      if status = .processing ∨ status = .failed then
        let call : StatusCall :=
          { now := now
            status := status
            errorMessage := errorMessage
            workflowRunId := some run.workflowRunId }
        some { s with doc := (updateDocumentStatus call s.doc).1 }
      else none
    | none => none
  | .commit k now tenantId processingTimeMs =>
    match s.runs[k]? with
    | some run =>
      let result := storeInPostgresql (run.storeInput c tenantId processingTimeMs) now
        (run.batch c).chunks s.doc
      some { s with
        doc := result.1
        runs := if result.2.success then s.runs.set k { run with stored := true } else s.runs }
    | none => none
  | .complete k =>
    match s.runs[k]? with
    | some run =>
      if run.status = .running ∧ run.stored then
        some { s with runs := s.runs.set k { run with status := .completed } }
      else none
    | none => none
  | .fail k =>
    match s.runs[k]? with
    | some run =>
      if run.status = .running then
        some { s with runs := s.runs.set k { run with status := .failed } }
      else none
    | none => none

end UploadSystem

end Inherent
