import Inherent.Native.WorkspacePurge
import Inherent.ForStd.IdempotentSteps

/-!
# The purge on the stores of all workspaces

What the deletes of `PurgeWorkspaceWorkflow` do to the stores of a deployment, with the rows
of every workspace (`src/services/inh-ingestion-svc/src/services/database.py`,
`weaviate.py`, `audit_mongo_writer.py`).  Of each row the columns are kept that a delete or
a cascade reads.  A run may stop anywhere, and each of its activities may be attempted more
than once.
-/

namespace Inherent

/-- A row of a table that is counted by workspace. -/
structure StoreRow where
  id : Nat
  workspaceId : Option String
  /-- `processed_document_id`, of a chunk. -/
  processedDocumentId : Option Nat := none
  /-- The status of an API key. -/
  active : Bool := true
  deriving DecidableEq, Repr

/-- A row of `chunk_reuse_events`. -/
structure ReuseEvent where
  id : Nat
  sourceChunkId : Nat
  workspaceId : String
  deriving DecidableEq, Repr

/-- A row of `eval_run_results`. -/
structure EvalRunResult where
  id : Nat
  runId : Nat
  deriving DecidableEq, Repr

/-- A document of `audit_logs`. -/
structure AuditLog where
  id : Nat
  workspaceId : Option String
  workspaceIds : List String := []
  deriving DecidableEq, Repr

/-- `_workspace_filter`. -/
def AuditLog.names (log : AuditLog) (workspaceId : String) : Prop :=
  log.workspaceId = some workspaceId ∨ workspaceId ∈ log.workspaceIds

instance (log : AuditLog) (workspaceId : String) : Decidable (log.names workspaceId) :=
  inferInstanceAs (Decidable (_ ∨ _))

/-- The stores of all workspaces.  Under `apiKeysActive` are the API keys, revoked ones
    included; a collection is given by the number of its objects. -/
@[ext]
structure PurgeStores where
  rows : ResidueTable → List StoreRow
  reuseEvents : List ReuseEvent := []
  runResults : List EvalRunResult := []
  collections : String → Option Nat := fun _ => none
  auditLogs : List AuditLog := []

namespace PurgeStores

variable (s : PurgeStores) (workspaceId : String)

/-- `DELETE FROM table WHERE workspace_id = :workspace_id`, on each of the tables. -/
def deleteWhere (tables : List ResidueTable) : ResidueTable → List StoreRow := fun t =>
  if t ∈ tables then (s.rows t).filter fun r => r.workspaceId ≠ some workspaceId
  else s.rows t

/-- The chunk lies under a document of the workspace, and goes with it. -/
def Cascades (chunk : StoreRow) : Prop :=
  ∃ d ∈ s.rows .processedDocuments,
    d.workspaceId = some workspaceId ∧ chunk.processedDocumentId = some d.id

instance (chunk : StoreRow) : Decidable (s.Cascades workspaceId chunk) :=
  inferInstanceAs (Decidable (∃ d ∈ s.rows .processedDocuments, _))

/-- The source chunk of the reuse event goes. -/
def ReuseCascades (e : ReuseEvent) : Prop :=
  ∃ c ∈ s.rows .documentChunks, s.Cascades workspaceId c ∧ e.sourceChunkId = c.id

instance (e : ReuseEvent) : Decidable (s.ReuseCascades workspaceId e) :=
  inferInstanceAs (Decidable (∃ c ∈ s.rows .documentChunks, _))

/-- The result is one of a run of the workspace. -/
def ResultCascades (r : EvalRunResult) : Prop :=
  ∃ run ∈ s.rows .evalRuns, run.workspaceId = some workspaceId ∧ r.runId = run.id

instance (r : EvalRunResult) : Decidable (s.ResultCascades workspaceId r) :=
  inferInstanceAs (Decidable (∃ run ∈ s.rows .evalRuns, _))

/-- `delete_workspace_data`: the documents, with the chunks under them and the reuse events
    of these, and the metadata. -/
def deleteWorkspaceData : PurgeStores :=
  { s with
    rows := fun t =>
      if t = .documentChunks then
        (s.rows .documentChunks).filter fun c => ¬ s.Cascades workspaceId c
      else s.deleteWhere workspaceId [.processedDocuments, .workspaceMetadata] t
    reuseEvents := s.reuseEvents.filter fun e => ¬ s.ReuseCascades workspaceId e }

/-- `delete_workspace_side_tables`. -/
def deleteWorkspaceSideTables : PurgeStores :=
  { s with
    rows := s.deleteWhere workspaceId
      [.deadLetterJobs, .ingestionEvents, .redactionAudit, .workspaceStatsLedger] }

/-- `delete_workspace_eval_data`. -/
def deleteWorkspaceEvalData : PurgeStores :=
  { s with
    rows := s.deleteWhere workspaceId [.evalQueryEvents, .evalFeedback, .evalCases, .evalRuns]
    runResults := s.runResults.filter fun r => ¬ s.ResultCascades workspaceId r }

/-- `delete_workspace_collection` of a client that answers. -/
def deleteWorkspaceCollection : PurgeStores :=
  { s with collections := fun w => if w = workspaceId then none else s.collections w }

/-- `delete_workspace_audit_logs`. -/
def deleteWorkspaceAuditLogs : PurgeStores :=
  { s with auditLogs := s.auditLogs.filter fun log => ¬ log.names workspaceId }

/-- `revoke_workspace_api_keys`. -/
def revokeWorkspaceApiKeys : PurgeStores :=
  { s with
    rows := fun t =>
      if t = .apiKeysActive then
        (s.rows .apiKeysActive).map fun key =>
          if key.workspaceId = some workspaceId then { key with active := false } else key
      else s.rows t }

/-- The stores of one workspace, as `verify_purge` counts them. -/
def ofWorkspace : WorkspaceStores where
  rows t := ((s.rows t).filter fun r =>
    r.workspaceId = some workspaceId ∧ (t = .apiKeysActive → r.active = true)).length
  collection := s.collections workspaceId
  auditLogs := (s.auditLogs.filter fun log => log.names workspaceId).length

end PurgeStores

/-- The transactions of the purge that delete. -/
inductive PurgeDelete where
  | workspaceData
  | sideTables
  | evalData
  | collection
  | auditLogs
  | apiKeys
  deriving DecidableEq, Repr

/-- One of them. -/
def PurgeDelete.apply (input : PurgeWorkspaceInput) : PurgeDelete → PurgeStores → PurgeStores
  | workspaceData, s => s.deleteWorkspaceData input.workspaceId
  | sideTables, s => s.deleteWorkspaceSideTables input.workspaceId
  | evalData, s => s.deleteWorkspaceEvalData input.workspaceId
  | collection, s => s.deleteWorkspaceCollection input.workspaceId
  | auditLogs, s => if input.retainAuditLogs then s else s.deleteWorkspaceAuditLogs input.workspaceId
  | apiKeys, s => s.revokeWorkspaceApiKeys input.workspaceId

/-- What a transaction of the workflow writes. -/
inductive PurgeStep where
  /-- `set_workspace_purge_status`. -/
  | mark (status : PurgeStatus)
  | delete (d : PurgeDelete)
  deriving DecidableEq, Repr

/-- The activities of the workflow that write to the stores of the workspace or to its
    marker. -/
inductive PurgeActivity where
  | markWorkspacePurging
  | purgePostgresDocuments
  | purgePostgresSideTables
  | purgeWeaviateCollection
  | purgeAuditLogs
  | revokeWorkspaceApiKeys
  | markWorkspacePurged
  deriving DecidableEq, Repr

namespace PurgeActivity

/-- The order of the workflow. -/
def all : List PurgeActivity :=
  [markWorkspacePurging, purgePostgresDocuments, purgePostgresSideTables,
    purgeWeaviateCollection, purgeAuditLogs, revokeWorkspaceApiKeys, markWorkspacePurged]

/-- The transactions of an activity. -/
def transactions : PurgeActivity → List PurgeStep
  | markWorkspacePurging => [.mark .purging]
  | purgePostgresDocuments => [.delete .workspaceData]
  | purgePostgresSideTables => [.delete .sideTables, .delete .evalData]
  | purgeWeaviateCollection => [.delete .collection]
  | purgeAuditLogs => [.delete .auditLogs]
  | revokeWorkspaceApiKeys => [.delete .apiKeys]
  | markWorkspacePurged => [.mark .purged]

end PurgeActivity

/-- An attempt of an activity: how many of its transactions take effect, and how the vector
    store answers. -/
structure PurgeAttempt where
  committed : Nat
  access : WeaviateAccess := .answers true
  deriving DecidableEq, Repr

/-- What an attempt writes; the collection stays when the vector store does not answer. -/
def PurgeActivity.steps (activity : PurgeActivity) (a : PurgeAttempt) : List PurgeStep :=
  match activity, a.access with
  | .purgeWeaviateCollection, .answers _ => activity.transactions.take a.committed
  | .purgeWeaviateCollection, _ => []
  | _, _ => activity.transactions.take a.committed

/-- The attempts of each activity of a run. -/
abbrev PurgeAttempts := PurgeActivity → List PurgeAttempt

/-- What a run writes, in order. -/
def PurgeAttempts.steps (attempts : PurgeAttempts) : List PurgeStep :=
  PurgeActivity.all.flatMap fun activity => (attempts activity).flatMap activity.steps

/-- Every activity has an attempt whose transactions all take effect. -/
def PurgeAttempts.Complete (attempts : PurgeAttempts) : Prop :=
  ∀ activity, ∃ a ∈ attempts activity, activity.steps a = activity.transactions

/-- The stores, and `workspace_purge_state`. -/
structure PurgeState where
  stores : PurgeStores
  status : String → Option PurgeStatus := fun _ => none

/-- The state after a step. -/
def PurgeState.after (input : PurgeWorkspaceInput) (s : PurgeState) : PurgeStep → PurgeState
  | .mark status =>
    { s with status := fun w => if w = input.workspaceId then some status else s.status w }
  | .delete d => { s with stores := d.apply input s.stores }

/-- The state after the steps in order. -/
def runPurge (input : PurgeWorkspaceInput) (steps : List PurgeStep) (s : PurgeState) :
    PurgeState :=
  steps.foldl (PurgeState.after input) s

end Inherent
