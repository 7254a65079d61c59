import Inherent.Native.DeadLetter

/-!
# Refresh of a document

`POST /v1/documents/{id}/refresh` and the MCP tool `refresh_stale_source` ingest a stored
document again: each reads the row's upload fields, resets the row and writes a
`document.uploaded` message of its own from them.
-/

namespace Inherent

/-- `resolve_tenant_user_id`: the setting, and the owners that the control plane knows. -/
structure OwnerLookup where
  /-- `workspace_owner_lookup_enabled`. -/
  enabled : Bool
  owner : String → Option String

/-- `resolve_tenant_user_id`. -/
def OwnerLookup.resolveTenantUserId (l : OwnerLookup) (workspaceId eventUserId : String) :
    String :=
  if l.enabled then (l.owner workspaceId).getD eventUserId else eventUserId

/-- The services of the trigger and of its runs, with this lookup. -/
def OwnerLookup.uploads (l : OwnerLookup) (extract : DocumentIngestionInput → ExtractedDocument)
    (workspaceVerticalPacks : String → Option String) : UploadConfig where
  resolveTenantUserId := l.resolveTenantUserId
  extract := extract
  workspaceVerticalPacks := workspaceVerticalPacks

/-- The columns of `get_document_upload_fields`. -/
structure UploadFields where
  documentId : String
  workspaceId : String
  userId : String
  uploadedBy : Option String
  filename : String
  originalFilename : String
  contentType : String
  sizeBytes : Nat
  storageBackend : String
  storagePath : String
  storageBucket : Option String
  storageUrl : Option String
  deriving DecidableEq, Repr

/-- The select list of `get_document_upload_fields`. -/
def ProcessedDocument.uploadFields (row : ProcessedDocument) : UploadFields where
  documentId := row.documentId
  workspaceId := row.workspaceId
  userId := row.userId
  uploadedBy := row.uploadedBy
  filename := row.filename
  originalFilename := row.originalFilename
  contentType := row.contentType
  sizeBytes := row.sizeBytes
  storageBackend := row.storageBackend
  storagePath := row.storagePath
  storageBucket := row.storageBucket
  storageUrl := row.storageUrl

/-- `get_document_upload_fields`: `none` for a document of another workspace. -/
def getDocumentUploadFields (workspaceId : String) (doc : Option Document) :
    Option UploadFields := do
  let d ← doc
  if d.row.workspaceId = workspaceId then some d.row.uploadFields else none

/-- The reset that both surfaces make before they publish. -/
def UploadFields.resetCall (f : UploadFields) (now : Timestamp) : ResetCall where
  now := now
  documentId := f.documentId
  workspaceId := f.workspaceId
  userId := f.userId
  uploadedBy := f.uploadedBy
  filename := f.filename
  originalFilename := f.originalFilename
  contentType := f.contentType
  sizeBytes := f.sizeBytes
  storageBackend := f.storageBackend
  storagePath := f.storagePath
  storageBucket := f.storageBucket
  storageUrl := f.storageUrl

/-- The `mq_message` of `refresh_document`. -/
def UploadFields.refreshDocumentMessage (f : UploadFields) (nowIso : String) : Message :=
  [("event_type", .str "document.uploaded"),
    ("document_id", .str f.documentId),
    ("workspace_id", .str f.workspaceId),
    ("user_id", .str f.userId),
    ("uploaded_by", .ofOption f.uploadedBy),
    ("filename", .str f.filename),
    ("original_filename", .str f.originalFilename),
    ("content_type", .str f.contentType),
    ("size_bytes", .int f.sizeBytes),
    ("storage_backend", .str f.storageBackend),
    ("storage_path", .str f.storagePath),
    ("storage_bucket", .ofOption f.storageBucket),
    ("storage_url", .ofOption f.storageUrl),
    ("timestamp", .str nowIso),
    ("contract_version", .str "1.0.0")]

/-- The `mq_message` of `_handle_refresh_stale_source`. -/
def UploadFields.refreshStaleSourceMessage (f : UploadFields) (nowIso : String) : Message :=
  [("event_type", .str "document.uploaded"),
    ("document_id", .str f.documentId),
    ("workspace_id", .str f.workspaceId),
    ("user_id", .str f.userId),
    ("uploaded_by", .ofOption f.uploadedBy),
    ("filename", .str f.filename),
    ("original_filename", .str f.originalFilename),
    ("content_type", .str f.contentType),
    ("size_bytes", .int f.sizeBytes),
    ("storage_backend", .str f.storageBackend),
    ("storage_path", .str f.storagePath),
    ("storage_bucket", .ofOption f.storageBucket),
    ("storage_url", .ofOption f.storageUrl),
    ("timestamp", .str nowIso),
    ("contract_version", .str "1.0.0")]

/-- A refresh, once the caller is authorised: the document after its reset and the published
    message.  `none` is the answer that there is no such document. -/
def refresh (rebuild : UploadFields → String → Message) (workspaceId : String) (now : Timestamp)
    (nowIso : String) (doc : Option Document) : Option (Document × Message) := do
  let fields ← getDocumentUploadFields workspaceId doc
  some (createOrResetPendingDocument (fields.resetCall now) doc, rebuild fields nowIso)

/-- `refresh_document`. -/
def refreshDocument : String → Timestamp → String → Option Document → Option (Document × Message) :=
  refresh UploadFields.refreshDocumentMessage

/-- `_handle_refresh_stale_source`. -/
def handleRefreshStaleSource : String → Timestamp → String → Option Document →
    Option (Document × Message) :=
  refresh UploadFields.refreshStaleSourceMessage

/-- How a run goes that completes: when its `create_pending_document` commits, if it does, and
    its `store_in_postgresql`. -/
structure CompletedRun where
  workflowRunId : RunId
  startTime : Timestamp
  claimedAt : Option Timestamp
  storedAt : Timestamp
  tenantId : Option Nat
  processingTimeMs : Nat

/-- The document after the run that the trigger starts for the message, and the output of its
    store. -/
def CompletedRun.finish (r : CompletedRun) (c : UploadConfig) (m : DocumentUploadMessage)
    (prior : Option Document) : Option Document × StoreDocumentOutput :=
  let run : UploadRun := {
    messageNo := 0
    input := c.workflowInput m
    workflowRunId := r.workflowRunId
    startTime := r.startTime }
  let claimed := match r.claimedAt with
    | none => prior
    | some now => (createPendingDocument (run.pendingCall now) prior).1
  storeInPostgresql (run.storeInput c r.tenantId r.processingTimeMs) r.storedAt (run.batch c).chunks
    claimed

end Inherent
