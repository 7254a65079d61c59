import Inherent.Native.DocumentUpload
import Inherent.Native.WorkspacePurge

/-!
# The activities that fill a workspace

What the attempts of the ingestion service's activities write to the stores that a purge
empties: the rows of documents and chunks, dead letters and the stats ledger, and the
collection of the workspace with its tenants and objects.  An attempt runs on a worker, whose
`WeaviateService` keeps the collections and tenants it has seen; the `TenantManager` is made
anew for each call of an activity.  The name of a tenant is an encoding of the user id, which
stands for it.
-/

namespace Inherent

/-! ## The stores -/

/-- The columns of a dead letter under `uq_dead_letter_jobs`. -/
structure DeadLetterKey where
  documentId : String
  workflowRunId : RunId
  dedupKey : String := ""
  deriving DecidableEq, Repr

/-- The key of an object, which its UUID is computed from. -/
def VectorObject.objectKey (o : VectorObject) : String × String × Nat :=
  (o.userId, o.documentId, o.chunkIndex)

/-- The collection of the workspace. -/
structure TenantCollection where
  tenants : List String := []
  objects : UniqueTable VectorObject.objectKey := .empty

/-- The stores of the workspace.  `otherRows` counts the rows of the tables that no attempt
    writes here. -/
structure WorkspaceTables where
  documents : UniqueTable fun d : Document => d.row.documentId := .empty
  deadLetters : UniqueTable (id : DeadLetterKey → DeadLetterKey) := .empty
  ledger : UniqueTable (id : RunId → RunId) := .empty
  collection : Option TenantCollection := none
  otherRows : ResidueTable → Nat := fun _ => 0
  auditLogs : Nat := 0

/-- What an attempt can create. -/
inductive CreatedItem where
  | document (documentId : String)
  | chunk (documentId : String) (chunkIndex : Nat)
  | deadLetter (key : DeadLetterKey)
  | ledger (workflowRunId : RunId)
  | collection
  | tenant (userId : String)
  | object (key : String × String × Nat)
  deriving DecidableEq, Repr

/-- The stores as `verify_purge` counts them. -/
def WorkspaceTables.stores (t : WorkspaceTables) (workspaceId : String) : WorkspaceStores where
  rows
    | .processedDocuments =>
      (t.documents.rows.filter fun d => d.row.workspaceId = workspaceId).length
    | .documentChunks =>
      (t.documents.rows.map fun d =>
        (d.chunks.rows.filter fun r => r.workspaceId = workspaceId).length).sum
    | .deadLetterJobs => t.deadLetters.size
    | .workspaceStatsLedger => t.ledger.size
    | table => t.otherRows table
  collection := t.collection.map fun c => c.objects.size
  auditLogs := t.auditLogs

/-- The caches of a worker's `WeaviateService`, for the collection of the workspace. -/
structure WeaviateCaches where
  /-- The collection is in `_collection_cache`. -/
  collection : Bool := false
  /-- The tenants in `_tenant_cache`. -/
  tenants : List String := []
  deriving DecidableEq, Repr

/-! ## `TenantManager` -/

/-- The caches of a `TenantManager`. -/
structure TenantManager where
  tenantCache : List (String × Nat) := []
  workspaceCache : List String := []
  deriving DecidableEq, Repr

/-- What the first lines of `ensure_workspace_ready` come to. -/
inductive ReadyCheck where
  /-- The caches say that the workspace is ready. -/
  | cached (tenantId : Nat)
  /-- A purge has touched the workspace. -/
  | refused (status : PurgeStatus)
  | admitted
  deriving DecidableEq, Repr

/-- `ensure_workspace_ready` up to the purge status. -/
def TenantManager.check (m : TenantManager) (workspaceId userId : String)
    (purgeStatus : Option PurgeStatus) : ReadyCheck :=
  match m.tenantCache.lookup userId with
  | some tenantId =>
    if workspaceId ++ ":" ++ userId ∈ m.workspaceCache then .cached tenantId
    else (purgeStatus.map ReadyCheck.refused).getD .admitted
  | none => (purgeStatus.map ReadyCheck.refused).getD .admitted

/-- A new manager always asks for the purge status. -/
@[simp] theorem TenantManager.check_new (workspaceId userId : String)
    (purgeStatus : Option PurgeStatus) :
    ({} : TenantManager).check workspaceId userId purgeStatus =
      (purgeStatus.map ReadyCheck.refused).getD .admitted := rfl

/-! ## The attempts -/

/-- An activity that writes to the stores, with what its writes read of its input. -/
inductive StoreActivity where
  | createPendingDocument (run : UploadRun)
  | ensureTenantReady (userId : String)
  | storeInPostgresql (input : StoreDocumentInput)
  | storeInWeaviate (input : StoreDocumentInput)
  | updateWorkspaceStats (workflowRunId : RunId)
  | recordDeadLetter (key : DeadLetterKey)
  deriving DecidableEq, Repr

/-- A result that a run goes on with. -/
inductive ActivityOutput where
  | none
  | tenant (tenantId : Nat)
  | store (output : StoreDocumentOutput)
  deriving DecidableEq, Repr

/-- How far an attempt is. -/
inductive WriterPhase where
  | started
  /-- `ensure_workspace_ready` is past the purge status. -/
  | admitted
  /-- It has written the tenant and the metadata to PostgreSQL. -/
  | provisioned
  /-- A store has read its chunks from staging. -/
  | read (chunks : List StagedChunk)
  /-- `store_in_weaviate` has passed `is_active_run`. -/
  | permitted (chunks : List StagedChunk)
  /-- It is past its delete. -/
  | deleted (chunks : List StagedChunk)
  /-- `ensure_workspace_collection` has returned; the chunks are those to store. -/
  | collectionReady (chunks : List StagedChunk)
  /-- `ensure_user_tenant` has returned. -/
  | tenantReady (chunks : List StagedChunk)
  | finished (output : ActivityOutput)
  | raised
  deriving DecidableEq, Repr

/-- An attempt of an activity of the run with the number `run`. -/
structure WriterAttempt where
  run : Nat
  worker : Nat
  activity : StoreActivity
  phase : WriterPhase := .started
  deriving DecidableEq, Repr

/-- What an attempt does next. -/
inductive AttemptStep where
  /-- The caches of the `TenantManager`, and the purge status. -/
  | check
  /-- `upsert_tenant` and `upsert_workspace_metadata`. -/
  | provision
  | ensureCollection
  | ensureTenant
  /-- `ensure_workspace_ready` returns; a failure of Weaviate is only logged. -/
  | ready (tenantId : Nat)
  | readStaging
  | checkFence
  /-- `delete_document_chunks_graceful`; `deleted` says whether it went through. -/
  | deleteObjects (deleted : Bool)
  /-- The write of the activity; `landed` says which objects Weaviate takes. -/
  | write (now : Timestamp) (landed : List Bool)
  | raise
  deriving DecidableEq, Repr

/-- The state that a step of an attempt leaves, and what it creates. -/
structure AttemptEffect where
  attempt : WriterAttempt
  tables : WorkspaceTables
  caches : WeaviateCaches
  created : List CreatedItem := []

namespace WorkspaceTables

variable (t : WorkspaceTables)

/-- A transaction on one document. -/
def onDocument {α : Type} (documentId : String) (f : Option Document → Option Document × α) :
    WorkspaceTables × α :=
  let result := f (t.documents.find? documentId)
  match result.1 with
  | some d => ({ t with documents := t.documents.put d }, result.2)
  | none => (t, result.2)

/-- `ensure_workspace_collection`. -/
def ensureWorkspaceCollection (caches : WeaviateCaches) :
    WorkspaceTables × WeaviateCaches × List CreatedItem :=
  if caches.collection then (t, caches, [])
  else
    match t.collection with
    | some _ => (t, { caches with collection := true }, [])
    | none => ({ t with collection := some {} }, { caches with collection := true }, [.collection])

/-- `ensure_user_tenant`: it raises when the collection is not there. -/
def ensureUserTenant (caches : WeaviateCaches) (userId : String) :
    Option (WorkspaceTables × WeaviateCaches × List CreatedItem) :=
  if userId ∈ caches.tenants then some (t, caches, [])
  else
    t.collection.map fun c =>
      let caches := { caches with tenants := userId :: caches.tenants }
      if userId ∈ c.tenants then (t, caches, [])
      else
        ({ t with collection := some { c with tenants := c.tenants ++ [userId] } }, caches,
          [.tenant userId])

/-- The delete of a document's objects in the tenant. -/
def deleteObjects (userId documentId : String) : WorkspaceTables :=
  { t with
    collection := t.collection.map fun c =>
      { c with
        objects := c.objects.filter fun o => ¬ (o.userId = userId ∧ o.documentId = documentId) } }

/-- The batch of `store_chunks_with_tenant`: the objects that it writes.  Weaviate takes none
    without the collection and the tenant. -/
def writeObjects (input : StoreDocumentInput) (now : Timestamp) (chunks : List StagedChunk)
    (landed : List Bool) : WorkspaceTables × List VectorObject :=
  match t.collection with
  | none => (t, [])
  | some c =>
    if input.userId ∈ c.tenants then
      let batch := (input.vectorObjects now chunks).zip landed
      let written := batch.filterMap fun p => if p.2 then some p.1 else none
      ({ t with collection := some { c with objects := c.objects.putAll written } }, written)
    else (t, [])

end WorkspaceTables

/-- The chunk rows that a store has inserted. -/
def insertedChunks (input : StoreDocumentInput) (before after : Option Document) :
    List CreatedItem :=
  let kept : Nat → Bool := fun i => input.append && before.any fun d => d.chunks.Holds i
  ((after.map fun d => d.chunks.rows).getD []).filterMap fun r =>
    if kept r.chunkIndex then none else some (.chunk input.documentId r.chunkIndex)

namespace WriterAttempt

variable (a : WriterAttempt)

/-- The attempt goes on to the phase. -/
def goTo (phase : WriterPhase) (t : WorkspaceTables) (caches : WeaviateCaches)
    (created : List CreatedItem := []) : AttemptEffect where
  attempt := { a with phase := phase }
  tables := t
  caches := caches
  created := created

/-- The write of the activity. -/
def write (t : WorkspaceTables) (caches : WeaviateCaches) (now : Timestamp)
    (landed : List Bool) : Option AttemptEffect :=
  match a.activity, a.phase with
  | .createPendingDocument run, .started =>
    let result := t.onDocument run.input.documentId (createPendingDocument (run.pendingCall now))
    some (a.goTo (.finished .none) result.1 caches
      (if result.2 then [.document run.input.documentId] else []))
  | .storeInPostgresql input, .read chunks =>
    let before := t.documents.find? input.documentId
    let result := t.onDocument input.documentId (storeInPostgresql input now chunks)
    let created :=
      (if result.2.documentRowInserted then [.document input.documentId] else []) ++
        if result.2.success then
          insertedChunks input before (result.1.documents.find? input.documentId)
        else []
    some (a.goTo (.finished (.store result.2)) result.1 caches created)
  | .storeInWeaviate input, .tenantReady chunks =>
    let result := t.writeObjects input now chunks landed
    let phase := if result.2.length = chunks.length then
        WriterPhase.finished (.store { success := true, chunksStored := chunks.length })
      else .raised
    some (a.goTo phase result.1 caches (result.2.map fun o => .object o.objectKey))
  | .updateWorkspaceStats workflowRunId, .started =>
    if t.ledger.Holds workflowRunId then some (a.goTo (.finished .none) t caches)
    else
      some (a.goTo (.finished .none) { t with ledger := t.ledger.insertNew workflowRunId } caches
        [.ledger workflowRunId])
  | .recordDeadLetter key, .started =>
    if t.deadLetters.Holds key then some (a.goTo (.finished .none) t caches)
    else
      some (a.goTo (.finished .none) { t with deadLetters := t.deadLetters.insertNew key } caches
        [.deadLetter key])
  | _, _ => none

/-- `ensure_workspace_collection` and `ensure_user_tenant`, which `ensure_workspace_ready` and
    `store_chunks_with_tenant` call. -/
def ensure (t : WorkspaceTables) (caches : WeaviateCaches) : AttemptStep → Option AttemptEffect
  | .ensureCollection =>
    let result := t.ensureWorkspaceCollection caches
    match a.activity, a.phase with
    | .ensureTenantReady _, .provisioned =>
      some (a.goTo (.collectionReady []) result.1 result.2.1 result.2.2)
    | .storeInWeaviate _, .deleted chunks =>
      some (a.goTo (.collectionReady chunks) result.1 result.2.1 result.2.2)
    | _, _ => none
  | .ensureTenant =>
    match a.activity, a.phase with
    | .ensureTenantReady userId, .collectionReady chunks =>
      (t.ensureUserTenant caches userId).map fun result =>
        a.goTo (.tenantReady chunks) result.1 result.2.1 result.2.2
    | .storeInWeaviate input, .collectionReady chunks =>
      (t.ensureUserTenant caches input.userId).map fun result =>
        a.goTo (.tenantReady chunks) result.1 result.2.1 result.2.2
    | _, _ => none
  | _ => none

/-- One step of the attempt. -/
def step (workspaceId : String) (purgeStatus : Option PurgeStatus)
    (staging : RunId → Option (List StagedChunk)) (t : WorkspaceTables)
    (caches : WeaviateCaches) : AttemptStep → Option AttemptEffect
  | .check =>
    match a.activity, a.phase with
    | .ensureTenantReady userId, .started =>
      -- `ensure_tenant_ready` makes a `TenantManager` of its own
      let phase := match ({} : TenantManager).check workspaceId userId purgeStatus with
        | .cached tenantId => WriterPhase.finished (.tenant tenantId)
        | .refused _ => .raised
        | .admitted => .admitted
      some (a.goTo phase t caches)
    | _, _ => none
  | .provision =>
    match a.activity, a.phase with
    | .ensureTenantReady _, .admitted =>
      let otherRows := fun table => if table = .workspaceMetadata then 1 else t.otherRows table
      some (a.goTo .provisioned { t with otherRows := otherRows } caches)
    | _, _ => none
  | .ready tenantId =>
    match a.activity, a.phase with
    | .ensureTenantReady _, .provisioned => some (a.goTo (.finished (.tenant tenantId)) t caches)
    | .ensureTenantReady _, .collectionReady _ =>
      some (a.goTo (.finished (.tenant tenantId)) t caches)
    | .ensureTenantReady _, .tenantReady _ =>
      some (a.goTo (.finished (.tenant tenantId)) t caches)
    | _, _ => none
  | .readStaging =>
    match a.activity, a.phase with
    | .storeInPostgresql input, .started | .storeInWeaviate input, .started =>
      let phase := match staging input.workflowRunId with
        | none => WriterPhase.raised
        | some chunks => .read chunks
      some (a.goTo phase t caches)
    | _, _ => none
  | .checkFence =>
    match a.activity, a.phase with
    | .storeInWeaviate input, .read chunks =>
      let phase := if isActiveRun input.workflowRunId (t.documents.find? input.documentId) then
          WriterPhase.permitted chunks
        else .finished (.store .supersededByNewerRun)
      some (a.goTo phase t caches)
    | _, _ => none
  | .deleteObjects deleted =>
    match a.activity, a.phase with
    | .storeInWeaviate input, .permitted chunks =>
      let tables := if !input.append && deleted then
          t.deleteObjects input.userId input.documentId
        else t
      some (a.goTo (.deleted chunks) tables caches)
    | _, _ => none
  | .write now landed => a.write t caches now landed
  | .raise =>
    match a.phase with
    | .finished _ | .raised => none
    | _ => some (a.goTo .raised t caches)
  | .ensureCollection => a.ensure t caches .ensureCollection
  | .ensureTenant => a.ensure t caches .ensureTenant

end WriterAttempt

end Inherent
