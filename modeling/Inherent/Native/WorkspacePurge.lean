import Inherent.ForStd.UniqueTable

/-!
# `PurgeWorkspaceWorkflow`

The workflow that deletes everything of a workspace, counts what is left in each store
and writes a receipt, with the activities it calls.  The workflow runs its activities one
after the other and fails when one of them fails for good, so it is a program over the
stores.  How each call goes is a parameter: what has become of the stores when its last
attempt runs, how the vector store answers, and whether the result reaches the workflow.
-/

namespace Inherent

/-! ## The stores of a workspace -/

/-- What `count_workspace_residue` counts rows of. -/
inductive ResidueTable where
  | workspaceMetadata
  | processedDocuments
  | documentChunks
  | deadLetterJobs
  | ingestionEvents
  | redactionAudit
  | workspaceStatsLedger
  | apiKeysActive
  | evalQueryEvents
  | evalFeedback
  | evalCases
  | evalRuns
  deriving DecidableEq, Repr

namespace ResidueTable

/-- The key of the table in the report. -/
def name : ResidueTable → String
  | workspaceMetadata => "workspace_metadata"
  | processedDocuments => "processed_documents"
  | documentChunks => "document_chunks"
  | deadLetterJobs => "dead_letter_jobs"
  | ingestionEvents => "ingestion_events"
  | redactionAudit => "redaction_audit"
  | workspaceStatsLedger => "workspace_stats_ledger"
  | apiKeysActive => "api_keys_active"
  | evalQueryEvents => "eval_query_events"
  | evalFeedback => "eval_feedback"
  | evalCases => "eval_cases"
  | evalRuns => "eval_runs"

/-- The tables in the order of the report. -/
def all : List ResidueTable :=
  [workspaceMetadata, processedDocuments, documentChunks, deadLetterJobs, ingestionEvents,
    redactionAudit, workspaceStatsLedger, apiKeysActive, evalQueryEvents, evalFeedback,
    evalCases, evalRuns]

theorem mem_all (t : ResidueTable) : t ∈ all := by cases t <;> decide

end ResidueTable

/-- What the stores hold of the workspace: the rows of the PostgreSQL tables, the objects
    of the Weaviate collection (`none` when there is no collection) and the audit logs in
    MongoDB. -/
structure WorkspaceStores where
  rows : ResidueTable → Nat
  collection : Option Nat := none
  auditLogs : Nat := 0

/-- How the vector store answers an activity. -/
inductive WeaviateAccess where
  /-- `get_weaviate_service` could not connect and returns `None`. -/
  | unavailable
  /-- The service has no client. -/
  | disconnected
  /-- A call to the client raises. -/
  | raises
  /-- The client answers; an aggregate may come without its `total_count`. -/
  | answers (totalCount : Bool)
  deriving DecidableEq, Repr

/-- A report: the count of each store. -/
abbrev Residue := List (String × Int)

/-- `PurgeWorkspaceInput` (`temporal/models.py`). -/
structure PurgeWorkspaceInput where
  workspaceId : String
  operator : String
  retainAuditLogs : Bool := false
  deriving DecidableEq, Repr

/-- `PurgeWorkspaceResult` (`temporal/models.py`). -/
structure PurgeWorkspaceResult where
  workspaceId : String
  purgeWorkflowId : String
  residue : Residue
  verified : Bool
  revokedApiKeys : Nat
  cancelledIngestionWorkflows : Nat
  auditLogsPurged : Bool
  deriving DecidableEq, Repr

/-- A row of `workspace_purge_receipts`. -/
structure PurgeReceipt where
  purgeWorkflowId : String
  workspaceId : String
  operator : String
  retainAuditLogs : Bool
  countsBefore : Residue
  countsAfter : Residue
  verified : Bool
  deriving DecidableEq, Repr

/-- The status of `workspace_purge_state`. -/
inductive PurgeStatus where
  | purging
  | purged
  deriving DecidableEq, Repr

/-- The stores of the workspace, its purge marker and the receipts.  `recorded` says that
    the run has written its receipt; no code reads it. -/
structure PurgeSystem where
  stores : WorkspaceStores
  purgeStatus : Option PurgeStatus := none
  receipts : UniqueTable PurgeReceipt.purgeWorkflowId := .empty
  recorded : Bool := false

/-- A program over the stores that can raise. -/
abbrev PurgeM := ExceptT String (StateM PurgeSystem)

/-- The program changes the stores and returns a result. -/
def onStores {α : Type} (f : WorkspaceStores → α × WorkspaceStores) : PurgeM α := do
  let s ← get
  set { s with stores := (f s.stores).2 }
  return (f s.stores).1

/-! ## Deleting -/

/-- `DELETE ... WHERE workspace_id = ...` on the tables. -/
def WorkspaceStores.deleteRows (s : WorkspaceStores) (tables : List ResidueTable) :
    WorkspaceStores :=
  { s with rows := fun t => if t ∈ tables then 0 else s.rows t }

/-- `set_workspace_purge_status`. -/
def setWorkspacePurgeStatus (status : PurgeStatus) : PurgeM Unit :=
  modify fun s => { s with purgeStatus := some status }

/-- `delete_workspace_data`: the documents with their chunks, and the metadata. -/
def deleteWorkspaceData (s : WorkspaceStores) : Nat × WorkspaceStores :=
  (s.rows .processedDocuments,
    s.deleteRows [.processedDocuments, .documentChunks, .workspaceMetadata])

/-- The tables of `delete_workspace_side_tables` and of `delete_workspace_eval_data`. -/
def sideTables : List ResidueTable :=
  [.deadLetterJobs, .ingestionEvents, .redactionAudit, .workspaceStatsLedger,
    .evalQueryEvents, .evalFeedback, .evalCases, .evalRuns]

/-- `delete_workspace_side_tables` and `delete_workspace_eval_data`: the rows deleted from
    each table. -/
def deleteSideTables (s : WorkspaceStores) : List (String × Nat) × WorkspaceStores :=
  (sideTables.map fun t => (t.name, s.rows t), s.deleteRows sideTables)

/-- `delete_workspace_collection`: an exception of the client is logged, and the collection
    counts as not deleted. -/
def deleteWorkspaceCollection (access : WeaviateAccess) (s : WorkspaceStores) :
    Bool × WorkspaceStores :=
  match access with
  | .answers _ => (s.collection.isSome, { s with collection := none })
  | _ => (false, s)

/-- `delete_workspace_audit_logs`, unless they are retained. -/
def deleteAuditLogs (input : PurgeWorkspaceInput) (s : WorkspaceStores) :
    Nat × WorkspaceStores :=
  if input.retainAuditLogs then (0, s) else (s.auditLogs, { s with auditLogs := 0 })

/-- `revoke_workspace_api_keys`. -/
def revokeApiKeys (s : WorkspaceStores) : Nat × WorkspaceStores :=
  (s.rows .apiKeysActive, s.deleteRows [.apiKeysActive])

/-- `purge_weaviate_collection`. -/
def purgeWeaviateCollection (access : WeaviateAccess) : PurgeM Bool :=
  if access = .disconnected then throw "Weaviate not connected"
  else onStores (deleteWorkspaceCollection access)

/-! ## Counting -/

/-- `count_workspace_residue`. -/
def countWorkspaceResidue (s : WorkspaceStores) : Residue :=
  ResidueTable.all.map fun t => (t.name, (s.rows t : Int))

/-- `workspace_collection_object_count`, and the `0` of `verify_purge` for a service that is
    not there.  A count that cannot be obtained is `-1`. -/
def workspaceCollectionObjectCount (access : WeaviateAccess) (s : WorkspaceStores) :
    Except String Int :=
  match access with
  | .unavailable => .ok 0
  | .disconnected => .error "Weaviate not connected"
  | .raises => .ok (-1)
  | .answers totalCount =>
    match s.collection with
    | none => .ok 0
    -- `int(agg.total_count or 0)`
    | some n => .ok (if totalCount then n else 0)

/-- The report of `verify_purge` on the stores. -/
def residueReport (input : PurgeWorkspaceInput) (access : WeaviateAccess)
    (s : WorkspaceStores) : Except String Residue := do
  let objects ← workspaceCollectionObjectCount access s
  let auditLogs := if input.retainAuditLogs then [] else [("audit_logs", (s.auditLogs : Int))]
  return countWorkspaceResidue s ++ [("weaviate_collection_objects", objects)] ++ auditLogs

/-- `verify_purge`. -/
def verifyPurge (input : PurgeWorkspaceInput) (access : WeaviateAccess) : PurgeM Residue := do
  let s ← get
  match residueReport input access s.stores with
  | .ok report => return report
  | .error e => throw e

/-- `all(count <= 0 for count in counts.values())`. -/
def allCountsClean (counts : Residue) : Bool := counts.all fun c => c.2 ≤ 0

/-- `record_purge_receipt`: an upsert that keeps the request of a row that is there. -/
def recordPurgeReceipt (input : PurgeWorkspaceInput) (purgeWorkflowId : String)
    (countsBefore countsAfter : Residue) : PurgeM Unit :=
  modify fun s =>
    let row := match s.receipts.find? purgeWorkflowId with
      | none =>
        { purgeWorkflowId := purgeWorkflowId, workspaceId := input.workspaceId,
          operator := input.operator, retainAuditLogs := input.retainAuditLogs,
          countsBefore := countsBefore, countsAfter := countsAfter,
          verified := allCountsClean countsAfter }
      | some row =>
        { row with
          countsBefore := countsBefore
          countsAfter := countsAfter
          verified := allCountsClean countsAfter }
    { s with receipts := s.receipts.put row, recorded := true }

/-! ## The workflow -/

/-- How the call of an activity goes once its retry policy is done with it: what other
    writers and earlier attempts have made of the stores when its last attempt runs, and the
    error it fails with, if it does, with whether that attempt took effect. -/
structure ActivityCall where
  stores : WorkspaceStores → WorkspaceStores := id
  failure : Option (Bool × String) := none

/-- `workflow.execute_activity`. -/
def executeActivity {α : Type} (call : ActivityCall) (activity : PurgeM α) : PurgeM α := do
  modify fun s => { s with stores := call.stores s.stores }
  match call.failure with
  | none => activity
  | some (effect, error) =>
    if effect then discard activity
    throw error

/-- How the calls of one run go, in order, with the vector store's answers. -/
structure PurgeCalls where
  markPurging : ActivityCall := {}
  countBefore : ActivityCall := {}
  countBeforeAccess : WeaviateAccess := .answers true
  cancelInflight : ActivityCall := {}
  /-- The number of workflows that took the request to cancel. -/
  cancelled : Nat := 0
  documents : ActivityCall := {}
  sideTables : ActivityCall := {}
  collection : ActivityCall := {}
  collectionAccess : WeaviateAccess := .answers true
  auditLogs : ActivityCall := {}
  revokeKeys : ActivityCall := {}
  markPurged : ActivityCall := {}
  countAfter : ActivityCall := {}
  countAfterAccess : WeaviateAccess := .answers true
  receipt : ActivityCall := {}

/-- `PurgeWorkspaceWorkflow.run`. -/
def purgeWorkspace (input : PurgeWorkspaceInput) (purgeWorkflowId : String)
    (calls : PurgeCalls) : PurgeM PurgeWorkspaceResult := do
  executeActivity calls.markPurging (setWorkspacePurgeStatus .purging)
  let countsBefore ←
    executeActivity calls.countBefore (verifyPurge input calls.countBeforeAccess)
  let cancelled ← executeActivity calls.cancelInflight (return calls.cancelled)
  let _ ← executeActivity calls.documents (onStores deleteWorkspaceData)
  let _ ← executeActivity calls.sideTables (onStores deleteSideTables)
  let _ ← executeActivity calls.collection (purgeWeaviateCollection calls.collectionAccess)
  let _ ← executeActivity calls.auditLogs (onStores (deleteAuditLogs input))
  let revokedKeys ← executeActivity calls.revokeKeys (onStores revokeApiKeys)
  executeActivity calls.markPurged (setWorkspacePurgeStatus .purged)
  let countsAfter ←
    executeActivity calls.countAfter (verifyPurge input calls.countAfterAccess)
  let verified := allCountsClean countsAfter
  executeActivity calls.receipt
    (recordPurgeReceipt input purgeWorkflowId countsBefore countsAfter)
  return { workspaceId := input.workspaceId, purgeWorkflowId := purgeWorkflowId,
           residue := countsAfter, verified := verified, revokedApiKeys := revokedKeys,
           cancelledIngestionWorkflows := cancelled,
           auditLogsPurged := !input.retainAuditLogs }

end Inherent
