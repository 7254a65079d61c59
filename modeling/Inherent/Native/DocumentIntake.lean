import Inherent.Native.DocumentUpload

/-!
# `intake_document`

The intake of the public API over the whole of `processed_documents`: validation, the two
dedup lookups, the upload of the bytes, the `pending` row, the `document.uploaded` message
and the compensation when publishing fails.  A step that reaches a service may raise, or the
process may stop in it, and in both cases its effect may have happened all the same.

The file-type registry (`inh_contracts/file_types.py`) is a table of pure functions and a
parameter here.
-/

namespace Inherent

/-- `hashlib.sha256(content_bytes).hexdigest()`: the digest stands for the bytes, with one
    character for each of them. -/
def contentHash (contentBytes : List UInt8) : Sha256 :=
  ⟨String.ofList (contentBytes.map fun b => Char.ofNat b.toNat)⟩

/-! ## Validation -/

/-- `MAX_UPLOAD_SIZE_BYTES`. -/
def maxUploadSizeBytes : Nat := 50 * 1024 * 1024

/-- `FileTypeSpec`: what the intake reads of it. -/
structure FileTypeSpec where
  key : String
  maxSizeBytes : Option Nat := none
  deriving DecidableEq, Repr

/-- `UploadResolution`. -/
structure UploadResolution where
  spec : FileTypeSpec
  viaGenericFallback : Bool
  deriving DecidableEq, Repr

/-- The functions of `inh_contracts.file_types` that the intake calls; a check that raises
    gives the text of its exception. -/
structure FileTypes where
  explicitlyUnsupportedMessageForMime : String → Option String := fun _ => none
  resolveUploadSpec : String → String → Option UploadResolution
  allMimeTypes : List String := []
  legacyFormatHintForMime : String → Option String := fun _ => none
  checkExtensionConsistency : String → FileTypeSpec → Option String := fun _ _ => none
  sniffContentType : List UInt8 → String → FileTypeSpec → Option String := fun _ _ _ => none
  mimeTypeForExtension : FileTypeSpec → String → String := fun spec _ => spec.key

/-- The arguments of `intake_document`. -/
structure IntakeRequest where
  workspaceId : String
  userId : String
  contentBytes : List UInt8
  filename : String
  contentType : String
  deriving DecidableEq, Repr

/-- The detail of the error for a type that is not in the registry. -/
def FileTypes.unsupportedDetail (types : FileTypes) (contentType : String) : String :=
  let detail := "Unsupported file type '" ++ contentType ++ "'. Allowed types: " ++
    ", ".intercalate types.allMimeTypes
  match types.legacyFormatHintForMime contentType with
  | some hint => detail ++ " " ++ hint
  | none => detail

/-- The detail of the error for a file over the limit. -/
def sizeDetail (sizeBytes maxSize : Nat) : String :=
  "File size (" ++ toString sizeBytes ++ " bytes) exceeds the " ++
    toString (maxSize / (1024 * 1024)) ++ " MB limit."

/-- Steps 1 to 4: the content type to store, or the detail of the `BadRequestError`. -/
def FileTypes.validate (types : FileTypes) (req : IntakeRequest) : Except String String := do
  if let some message := types.explicitlyUnsupportedMessageForMime req.contentType then
    throw message
  let some resolution := types.resolveUploadSpec req.contentType req.filename
    | throw (types.unsupportedDetail req.contentType)
  if let some error := types.checkExtensionConsistency req.filename resolution.spec then
    throw error
  let sizeBytes := req.contentBytes.length
  if sizeBytes = 0 then throw "Uploaded file is empty."
  let maxSize := resolution.spec.maxSizeBytes.getD maxUploadSizeBytes
  if maxSize < sizeBytes then throw (sizeDetail sizeBytes maxSize)
  if let some error := types.sniffContentType req.contentBytes req.contentType resolution.spec then
    throw error
  if resolution.viaGenericFallback then
    let extension := String.ofList ('.' :: PyStr.afterLast '.' req.filename.toList)
    return types.mimeTypeForExtension resolution.spec extension
  return req.contentType

/-! ## Storage keys -/

/-- `_sanitize_filename`. -/
def sanitizeFilename (filename : String) : String :=
  let safe := fun c : Char => c.isAlphanum || c = '.' || c = '_' || c = '-'
  String.ofList ((filename.toList.map fun c => if safe c then c else '_').take 255)

/-- `generate_key`. -/
def generateKey (workspaceId uuid filename : String) : String :=
  workspaceId ++ "/" ++ uuid ++ "/" ++ sanitizeFilename filename

/-- `build_storage_url`. -/
def buildStorageUrl (bucket key : String) : String := "s3://" ++ bucket ++ "/" ++ key

/-! ## The system -/

/-- The settings and the services whose answers do not depend on the tables. -/
structure IntakeConfig where
  fileTypes : FileTypes
  bucket : String
  /-- `get_workspace_owners_in_mongo`. -/
  workspaceOwner : String → Option String := fun _ => none

/-- A published message, with the bytes that were stored under its `storage_path` then. -/
structure PublishedMessage where
  message : DocumentUploadMessage
  bytes : Option (List UInt8)
  deriving DecidableEq, Repr

/-- The key of a document in `processed_documents`. -/
def Document.documentId (d : Document) : String := d.row.documentId

/-- The documents, the object storage and the messages.  `hashChangedAt` is the number of
    messages that were published when the `content_hash` of the document last changed; no code
    reads it. -/
structure IntakeSystem where
  documents : UniqueTable Document.documentId := .empty
  objects : String → Option (List UInt8) := fun _ => none
  published : List PublishedMessage := []
  hashChangedAt : String → Nat := fun _ => 0

namespace IntakeSystem

/-- The row with the latest `created_at` of those with the property. -/
def latestDocumentId (s : IntakeSystem) (P : Document → Bool) : Option String :=
  ((s.documents.rows.filter P).argmax fun d => d.row.createdAt).map Document.documentId

/-- `get_document_id_by_content_hash`. -/
def getDocumentIdByContentHash (s : IntakeSystem) (workspaceId : String) (hash : Sha256) :
    Option String :=
  s.latestDocumentId fun d => d.row.workspaceId = workspaceId ∧ d.row.contentHash = some hash

/-- `get_document_id_by_filename`. -/
def getDocumentIdByFilename (s : IntakeSystem) (workspaceId originalFilename : String) :
    Option String :=
  s.latestDocumentId fun d =>
    d.row.workspaceId = workspaceId ∧ d.row.originalFilename = originalFilename

/-- `get_document` and `get_document_upload_fields`. -/
def getDocument (s : IntakeSystem) (documentId workspaceId : String) : Option ProcessedDocument :=
  ((s.documents.find? documentId).map Document.row).filter fun row => row.workspaceId = workspaceId

/-- The document is written. -/
def write (s : IntakeSystem) (d : Document) : IntakeSystem :=
  let hash := (s.documents.find? d.documentId).map fun d => d.row.contentHash
  { s with
    documents := s.documents.put d
    hashChangedAt := if hash = some d.row.contentHash then s.hashChangedAt
      else Function.update s.hashChangedAt d.documentId s.published.length }

/-- A statement on the document with the id. -/
def modify (s : IntakeSystem) (documentId : String) (f : Option Document → Option Document) :
    IntakeSystem :=
  match f (s.documents.find? documentId) with
  | some d => s.write d
  | none => s

/-- `upload_file`. -/
def putObject (s : IntakeSystem) (key : String) (bytes : List UInt8) : IntakeSystem :=
  { s with objects := Function.update s.objects key (some bytes) }

/-- `publish`. -/
def publish (s : IntakeSystem) (message : DocumentUploadMessage) : IntakeSystem :=
  { s with published := s.published ++ [⟨message, s.objects message.storagePath⟩] }

end IntakeSystem

/-! ## Steps that fail -/

/-- How a step that reaches a service ends. -/
inductive StepOutcome where
  | ok
  /-- It raises; `landed` says whether its effect has happened. -/
  | raised (landed : Bool)
  /-- The process stops in it, or right after it. -/
  | crashed (landed : Bool)
  deriving DecidableEq, Repr

/-- The effect of the step has happened. -/
def StepOutcome.landed : StepOutcome → Bool
  | .ok => true
  | .raised landed => landed
  | .crashed landed => landed

/-- `DocumentUploadResponse`. -/
structure DocumentUploadResponse where
  documentId : String
  name : String
  workspaceId : String
  storageUrl : String
  mimeType : String
  sizeBytes : Nat
  status : DocumentStatus
  message : String
  deriving DecidableEq, Repr

/-- How a call of `intake_document` ends. -/
inductive IntakeResult where
  | response (r : DocumentUploadResponse)
  | badRequest (detail : String)
  | serviceUnavailable (serviceName detail : String)
  /-- Another exception leaves the function. -/
  | raised
  /-- The process stops. -/
  | crashed
  deriving DecidableEq, Repr

namespace StepOutcome

/-- A read: it raises, stops the process, or lets the call go on. -/
def read : StepOutcome → Except IntakeResult Unit
  | .ok => pure ()
  | .raised _ => throw .raised
  | .crashed _ => throw .crashed

/-- A step with an effect: what follows it, and what handles its exception. -/
def run (o : StepOutcome) (effect : IntakeSystem → IntakeSystem)
    (handler next : IntakeSystem → IntakeSystem × IntakeResult) (s : IntakeSystem) :
    IntakeSystem × IntakeResult :=
  let s := if o.landed then effect s else s
  match o with
  | .ok => next s
  | .raised _ => handler s
  | .crashed _ => (s, .crashed)

end StepOutcome

/-- The outcomes of the steps of a call; `marks k` is that of the attempt with the number `k`
    of `mark_document_failed`. -/
structure IntakeFaults where
  hashLookup : StepOutcome := .ok
  filenameLookup : StepOutcome := .ok
  getDocument : StepOutcome := .ok
  uploadFields : StepOutcome := .ok
  ownerLookup : StepOutcome := .ok
  uploadFile : StepOutcome := .ok
  persist : StepOutcome := .ok
  publish : StepOutcome := .ok
  marks : Nat → StepOutcome := fun _ => .ok

/-- The ids and the times that a call generates. -/
structure IntakeIds where
  documentUuid : String
  keyUuid : String
  now : Timestamp
  nowIso : String
  deriving DecidableEq, Repr

/-! ## Compensation -/

/-- `MARK_FAILED_ATTEMPTS`. -/
def markFailedAttempts : Nat := 3

/-- The loop of `mark_document_failed_with_retry` with `n` attempts left, from the attempt
    with the number `k` on: whether the mark landed as far as it knows, `none` when the process
    stops. -/
def markLoop (marks : Nat → StepOutcome) (mark : IntakeSystem → IntakeSystem) :
    Nat → Nat → IntakeSystem → IntakeSystem × Option Bool
  | 0, _, s => (s, some false)
  | n + 1, k, s =>
    let s := if (marks k).landed then mark s else s
    match marks k with
    | .ok => (s, some true)
    | .raised _ => markLoop marks mark n (k + 1) s
    | .crashed _ => (s, none)

/-- `mark_document_failed_with_retry`. -/
def markDocumentFailedWithRetry (marks : Nat → StepOutcome) (documentId workspaceId error : String)
    (now : Timestamp) (s : IntakeSystem) : IntakeSystem × Option Bool :=
  let mark := fun s : IntakeSystem =>
    s.modify documentId (markDocumentFailed workspaceId error now)
  markLoop marks mark markFailedAttempts 0 s

/-! ## The intake -/

/-- `if existing_document_id`: an empty id counts as none. -/
def truthy (id : Option String) : Option String := id.filter fun id => id ≠ ""

/-- The response of the identical-content short-circuit. -/
def existingResponse (req : IntakeRequest) (contentType : String) (existing : ProcessedDocument)
    (uploadFields : Option ProcessedDocument) : DocumentUploadResponse where
  documentId := existing.documentId
  name := existing.originalFilename
  workspaceId := req.workspaceId
  storageUrl := orDefault (uploadFields.bind ProcessedDocument.storageUrl) ""
  mimeType := orDefault (some existing.contentType) contentType
  sizeBytes := if existing.sizeBytes = 0 then req.contentBytes.length else existing.sizeBytes
  status := existing.status
  message := "Identical content already ingested; returning existing document."

/-- Steps 1 to 5, which write nothing: the document id and the content type to go on with, or
    the end of the call. -/
def admitIntake (c : IntakeConfig) (req : IntakeRequest) (ids : IntakeIds) (f : IntakeFaults)
    (s : IntakeSystem) : Except IntakeResult (String × String) := do
  let contentType ← (c.fileTypes.validate req).mapError .badRequest
  f.hashLookup.read
  match truthy (s.getDocumentIdByContentHash req.workspaceId (contentHash req.contentBytes)) with
  | some documentId =>
    f.getDocument.read
    if let some existing := s.getDocument documentId req.workspaceId then
      if existing.status ≠ .failed then
        f.uploadFields.read
        let uploadFields := s.getDocument documentId req.workspaceId
        throw (.response (existingResponse req contentType existing uploadFields))
    return (documentId, contentType)
  | none =>
    f.filenameLookup.read
    match truthy (s.getDocumentIdByFilename req.workspaceId req.filename) with
    | some documentId => return (documentId, contentType)
    | none => return (ids.documentUuid, contentType)

/-- The upload as step 7 records it. -/
def IntakeConfig.upload (c : IntakeConfig) (req : IntakeRequest) (ids : IntakeIds)
    (documentId contentType : String) : DocumentUpload :=
  let s3Key := generateKey req.workspaceId ids.keyUuid req.filename
  { documentId := documentId
    workspaceId := req.workspaceId
    tenantUserId := (c.workspaceOwner req.workspaceId).getD req.userId
    userId := req.userId
    filename := req.filename
    s3Key := s3Key
    contentType := contentType
    sizeBytes := req.contentBytes.length
    bucket := c.bucket
    storageUrl := buildStorageUrl c.bucket s3Key
    contentHash := contentHash req.contentBytes }

/-- The response of steps 8 and 9. -/
def DocumentUpload.response (u : DocumentUpload) (status : DocumentStatus) (message : String) :
    DocumentUploadResponse where
  documentId := u.documentId
  name := u.filename
  workspaceId := u.workspaceId
  storageUrl := u.storageUrl
  mimeType := u.contentType
  sizeBytes := u.sizeBytes
  status := status
  message := message

/-- The `except` branch of step 8. -/
def compensate (u : DocumentUpload) (ids : IntakeIds) (f : IntakeFaults) (s : IntakeSystem) :
    IntakeSystem × IntakeResult :=
  match markDocumentFailedWithRetry f.marks u.documentId u.workspaceId "ingestion enqueue failed"
      ids.now s with
  | (s, none) => (s, .crashed)
  | (s, some _) => (s, .response (u.response .failed
      ("Document was stored but could not be queued for processing " ++
        "(ingestion enqueue failed). Please retry the upload.")))

/-- Steps 6 to 9. -/
def storeAndEnqueue (u : DocumentUpload) (bytes : List UInt8) (ids : IntakeIds) (f : IntakeFaults)
    (s : IntakeSystem) : IntakeSystem × IntakeResult :=
  let persist := fun s : IntakeSystem => s.write
    (createOrResetPendingDocument (u.resetCall ids.now) (s.documents.find? u.documentId))
  let storageUnavailable := IntakeResult.serviceUnavailable "storage"
    "Failed to store the uploaded file. Please try again later."
  let databaseUnavailable := IntakeResult.serviceUnavailable "database"
    "Failed to record the upload. Please try again later."
  let accepted := IntakeResult.response (u.response .pending
    "Document uploaded successfully. Processing will begin shortly.")
  f.uploadFile.run (fun s => s.putObject u.s3Key bytes) (fun s => (s, storageUnavailable))
    (f.persist.run persist (fun s => (s, databaseUnavailable))
      (f.publish.run (fun s => s.publish (u.message ids.nowIso)) (compensate u ids f)
        (fun s => (s, accepted)))) s

/-- `intake_document`. -/
def intakeDocument (c : IntakeConfig) (req : IntakeRequest) (ids : IntakeIds) (f : IntakeFaults)
    (s : IntakeSystem) : IntakeSystem × IntakeResult :=
  let plan : Except IntakeResult (String × String) := do
    let plan ← admitIntake c req ids f s
    f.ownerLookup.read
    return plan
  match plan with
  | .error result => (s, result)
  | .ok (documentId, contentType) =>
    storeAndEnqueue (c.upload req ids documentId contentType) req.contentBytes ids f s

/-! ## Runs -/

/-- A write of the ingestion service to a document. -/
inductive IngestionWrite where
  | claim (c : PendingCall)
  | setStatus (documentId : String) (c : StatusCall)
  | store (c : StoreCall)
  deriving DecidableEq, Repr

namespace IngestionWrite

/-- The document it writes to. -/
def documentId : IngestionWrite → String
  | .claim c => c.documentId
  | .setStatus documentId _ => documentId
  | .store c => c.message.documentId

/-- What it makes of the document. -/
def apply : IngestionWrite → Option Document → Option Document
  | .claim c, d => (createPendingDocument c d).1
  | .setStatus _ c, d => (updateDocumentStatus c d).1
  | .store c, d => (storeProcessedDocument c d).1

end IngestionWrite

/-- What can happen: an upload, or a write of an ingestion run between two uploads. -/
inductive IntakeEvent where
  | upload (req : IntakeRequest) (ids : IntakeIds) (f : IntakeFaults)
  | ingestion (w : IngestionWrite)

/-- The generated ids are new. -/
def IntakeSystem.fresh (s : IntakeSystem) (req : IntakeRequest) (ids : IntakeIds) : Bool :=
  ¬ s.documents.Holds ids.documentUuid ∧
    s.objects (generateKey req.workspaceId ids.keyUuid req.filename) = none

/-- One event. -/
def IntakeSystem.step (c : IntakeConfig) (s : IntakeSystem) : IntakeEvent → Option IntakeSystem
  | .upload req ids f => if s.fresh req ids then some (intakeDocument c req ids f s).1 else none
  | .ingestion w => some (s.modify w.documentId w.apply)

end Inherent
