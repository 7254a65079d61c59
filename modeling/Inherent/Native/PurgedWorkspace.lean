import Inherent.Native.WorkspaceWriters

/-!
# A purge beside the runs of its workspace

`PurgeWorkspaceWorkflow` for one workspace, the runs of `DocumentIngestionWorkflow` and
`ConversationMemoryWorkflow` that have been there before it, and the attempts of their
activities.  An attempt goes on after its run has stopped waiting for it, and another one of
an activity may start until Temporal has the activity's result or its run is closed.
-/

namespace Inherent

/-! ## The runs -/

/-- Where a run of `DocumentIngestionWorkflow` is. -/
inductive IngestionStage where
  | createPendingDocument
  /-- The status write to `processing`. -/
  | setProcessing
  | ensureTenantReady
  /-- The fetch, the extraction, the chunking and the tagging. -/
  | preparing
  /-- The stores, or what follows a failure. -/
  | storing (await : IngestionAwait)
  deriving DecidableEq, Repr

/-- A run of `DocumentIngestionWorkflow` from its start. -/
structure IngestionRun where
  origin : UploadRun
  stage : IngestionStage := .createPendingDocument
  tenantId : Option Nat := none
  textLength : Nat := 0
  processingTimeMs : Nat := 0
  deriving DecidableEq, Repr

/-- What resumes it: the result of the activity that it awaits, or a cancellation. -/
inductive IngestionResume where
  | createPendingDocument (result : ActivityResult Unit)
  | setProcessing (result : ActivityResult Unit)
  | ensureTenantReady (result : ActivityResult Nat)
  /-- An activity before the stores fails for good. -/
  | prepareFailed (error : String)
  /-- The stores are scheduled. -/
  | prepared (textLength processingTimeMs : Nat)
  | store (target : StoreTarget) (result : ActivityResult StoreDocumentOutput)
  | updateWorkspaceStats (result : ActivityResult Unit)
  | setFailed (result : ActivityResult Unit)
  /-- A best-effort activity other than these ends, with or without a failure. -/
  | bestEffort (result : ActivityResult Unit)
  /-- The run is cancelled where it awaits an activity.  The `ActivityError` of the cancelled
      activity is an `Exception`; an `asyncio.CancelledError` is not, and leads to `finally`. -/
  | cancelled (activityError : Bool)
  deriving DecidableEq, Repr

/-- The run is cancelled. -/
def IngestionResume.isCancel : IngestionResume → Bool
  | .cancelled _ => true
  | _ => false

namespace IngestionRun

variable (run : IngestionRun)

/-- The run goes on to the `await`. -/
def goTo (await : IngestionAwait) : IngestionRun := { run with stage := .storing await }

/-- `store_input`. -/
def storeInput : StoreDocumentInput :=
  run.origin.input.storeInput {
    workflowRunId := run.origin.workflowRunId
    tenantId := run.tenantId
    textLength := run.textLength
    processingTimeMs := run.processingTimeMs }

/-- The activities that write to the stores among those that the run awaits. -/
def awaited : List StoreActivity :=
  match run.stage with
  | .createPendingDocument => [.createPendingDocument run.origin]
  | .ensureTenantReady => [.ensureTenantReady run.origin.input.userId]
  | .storing (.store pg wv) =>
    (if pg.isNone then [.storeInPostgresql run.storeInput] else []) ++
      if wv.isNone then [.storeInWeaviate run.storeInput] else []
  | .storing .updateWorkspaceStats => [.updateWorkspaceStats run.origin.workflowRunId]
  | .storing (.recordDeadLetter _) =>
    [.recordDeadLetter {
      documentId := run.origin.input.documentId
      workflowRunId := run.origin.workflowRunId }]
  | _ => []

/-- The run is closed. -/
def ended : Bool :=
  match run.stage with
  | .storing (.ended _) => true
  | _ => false

/-- The code after a cancellation where the run awaits an activity. -/
def afterCancel (activityError : Bool) : Option IngestionRun :=
  if activityError then
    match run.stage with
    -- the claim and the status write are best-effort
    | .createPendingDocument => some { run with stage := .setProcessing }
    | .setProcessing => some { run with stage := .ensureTenantReady }
    | .ensureTenantReady | .preparing | .storing (.store _ _) | .storing .updateWorkspaceStats =>
      some (run.goTo (.setFailed "Cancelled"))
    | .storing (.setFailed error) => some (run.goTo (.recordDeadLetter error))
    | .storing await => await.afterBestEffort.map run.goTo
  else
    match run.stage with
    | .storing (.ended _) => none
    -- `cleanup_staging` of the `finally` itself
    | .storing (.cleanupStaging error) => some (run.goTo (.ended error))
    | _ => some (run.goTo (.cleanupStaging (some "Cancelled")))

/-- `DocumentIngestionWorkflow.run`, from one `await` to the next. -/
def step : IngestionResume → Option IngestionRun
  | .createPendingDocument _ =>
    if run.stage = .createPendingDocument then some { run with stage := .setProcessing } else none
  | .setProcessing _ =>
    if run.stage = .setProcessing then some { run with stage := .ensureTenantReady } else none
  | .ensureTenantReady result =>
    if run.stage = .ensureTenantReady then
      match result with
      | .ok tenantId => some { run with stage := .preparing, tenantId := some tenantId }
      | .failed error => some (run.goTo (.setFailed error))
    else none
  | .prepareFailed error =>
    if run.stage = .preparing then some (run.goTo (.setFailed error)) else none
  | .prepared textLength processingTimeMs =>
    if run.stage = .preparing then
      some { run with
        stage := .storing (.store none none)
        textLength := textLength
        processingTimeMs := processingTimeMs }
    else none
  | .store target result =>
    match run.stage with
    | .storing (.store pg wv) =>
      if ConversationRun.awaitsStore pg wv target then
        some (run.goTo (.afterStore pg wv target result))
      else none
    | _ => none
  | .updateWorkspaceStats result =>
    if run.stage = .storing .updateWorkspaceStats then some (run.goTo (.afterStats result))
    else none
  | .setFailed _ =>
    match run.stage with
    | .storing (.setFailed error) => some (run.goTo (.recordDeadLetter error))
    | _ => none
  | .bestEffort _ =>
    match run.stage with
    | .storing await => await.afterBestEffort.map run.goTo
    | _ => none
  | .cancelled activityError => run.afterCancel activityError

end IngestionRun

namespace ConversationRun

variable (run : ConversationRun)

/-- The activities that write to the stores among those that the run awaits. -/
def awaited : List StoreActivity :=
  match run.await with
  | .ensureTenantReady => [.ensureTenantReady run.self.userId]
  | .store _ input pg wv =>
    (if pg.isNone then [.storeInPostgresql input] else []) ++
      if wv.isNone then [.storeInWeaviate input] else []
  | .updateWorkspaceStats _ => [.updateWorkspaceStats run.workflowRunId]
  | .recordDeadLetter _ job =>
    [.recordDeadLetter {
      documentId := job.documentId
      workflowRunId := job.workflowRunId
      dedupKey := job.dedupKey }]
  | _ => []

/-- The run is closed. -/
def isClosed : Bool :=
  match run.await with
  | .ended _ => true
  | _ => false

end ConversationRun

/-- A run of either workflow. -/
inductive WorkspaceFlow where
  | ingestion (run : IngestionRun)
  | conversation (run : ConversationRun)
  deriving DecidableEq, Repr

/-- The activities that write to the stores among those that the run awaits. -/
def WorkspaceFlow.awaited : WorkspaceFlow → List StoreActivity
  | .ingestion run => run.awaited
  | .conversation run => run.awaited

/-- The run is closed. -/
def WorkspaceFlow.isClosed : WorkspaceFlow → Bool
  | .ingestion run => run.ended
  | .conversation run => run.isClosed

/-- A run with the activities that it no longer awaits but has not cancelled. -/
structure WorkspaceRun where
  flow : WorkspaceFlow
  leftovers : List StoreActivity := []
  cancelRequested : Bool := false
  deriving DecidableEq, Repr

/-- What a run does. -/
inductive RunEvent where
  | ingestion (e : IngestionResume)
  | conversation (e : WorkflowEvent)
  /-- The next run of a conversation that has continued as new. -/
  | continueAsNew (workflowRunId : RunId) (now : Timestamp)

namespace RunEvent

/-- The store whose failure the event brings to `asyncio.gather`. -/
def failedStore : RunEvent → Option StoreTarget
  | .ingestion (.store target (.failed _)) => some target
  | .conversation (.store target (.failed _)) => some target
  | _ => none

/-- The output of an attempt that the event brings to the run. -/
def output : RunEvent → Option ActivityOutput
  | .ingestion (.ensureTenantReady (.ok tenantId)) => some (.tenant tenantId)
  | .conversation (.ensureTenantReady (.ok (some tenantId))) => some (.tenant tenantId)
  | .ingestion (.store _ (.ok output)) => some (.store output)
  | .conversation (.store _ (.ok output)) => some (.store output)
  | _ => none

/-- `ensure_tenant_ready` returns the id of a tenant. -/
def wellFormed : RunEvent → Bool
  | .conversation (.ensureTenantReady (.ok none)) => false
  | _ => true

end RunEvent

/-- The activity is the store. -/
def StoreActivity.isStore (target : StoreTarget) : StoreActivity → Bool
  | .storeInPostgresql _ => target = .postgresql
  | .storeInWeaviate _ => target = .weaviate
  | _ => false

namespace WorkspaceRun

variable (r : WorkspaceRun)

/-- The activities of which an attempt may start. -/
def scheduled : List StoreActivity :=
  if r.flow.isClosed then [] else r.flow.awaited ++ r.leftovers

/-- What the event leaves behind: a store fails, and `asyncio.gather` does not wait for the
    other one. -/
def leftBehind (e : RunEvent) : List StoreActivity :=
  match e.failedStore with
  | some target => r.flow.awaited.filter fun a => !a.isStore target
  | none => []

/-- One event of the run. -/
def step (e : RunEvent) : Option WorkspaceRun :=
  match r.flow, e with
  | .ingestion run, .ingestion resume =>
    if resume.isCancel && !r.cancelRequested then none
    else
      (run.step resume).map fun run =>
        { flow := .ingestion run
          leftovers := r.leftovers ++ r.leftBehind e
          cancelRequested := r.cancelRequested && !resume.isCancel }
  | .conversation run, .conversation event =>
    (run.step event).map fun run =>
      { r with
        flow := .conversation run
        leftovers := r.leftovers ++ r.leftBehind e }
  | .conversation run, .continueAsNew workflowRunId now =>
    match run.await with
    | .ended (.continuedAsNew input) =>
      some { r with
        flow := .conversation (.new input workflowRunId now)
        leftovers := [] }
    | _ => none
  | _, _ => none

end WorkspaceRun

/-! ## The purge -/

/-- The activities of the purge. -/
inductive PurgeTask where
  | markWorkspacePurging
  | countBefore
  | cancelInflightIngestion
  | purgePostgresDocuments
  | purgePostgresSideTables
  | purgeWeaviateCollection
  | purgeAuditLogs
  | revokeWorkspaceApiKeys
  | markWorkspacePurged
  | countAfter
  | recordPurgeReceipt
  deriving DecidableEq, Repr

/-- The order of the workflow. -/
def PurgeTask.all : List PurgeTask :=
  [markWorkspacePurging, countBefore, cancelInflightIngestion, purgePostgresDocuments,
    purgePostgresSideTables, purgeWeaviateCollection, purgeAuditLogs, revokeWorkspaceApiKeys,
    markWorkspacePurged, countAfter, recordPurgeReceipt]

/-- How far the purge is: the number of the activity that it awaits, whether an attempt of it
    has succeeded, and `counts_after`. -/
structure PurgeProgress where
  next : Nat := 0
  landed : Bool := false
  countsAfter : Option Residue := none
  deriving DecidableEq, Repr

/-- The purge has returned `verified=True`. -/
def PurgeProgress.verified (p : PurgeProgress) : Bool :=
  p.next = PurgeTask.all.length && p.countsAfter.any allCountsClean

/-- The workspace: its stores and its purge marker, the chunks of the runs in staging, the
    workers, the runs with the attempts of their activities, and the purge. -/
structure PurgedWorkspace where
  input : PurgeWorkspaceInput
  tables : WorkspaceTables := {}
  purgeStatus : Option PurgeStatus := none
  staging : RunId → Option (List StagedChunk) := fun _ => none
  workers : List WeaviateCaches := []
  runs : List WorkspaceRun := []
  attempts : List WriterAttempt := []
  purge : PurgeProgress := {}

/-- What can happen. -/
inductive PurgedEvent where
  /-- An attempt of the purge's `k`-th activity succeeds, on the worker, with this answer of
      the vector store. -/
  | purge (k worker : Nat) (access : WeaviateAccess)
  /-- The purge goes on to its next activity, or returns. -/
  | purgeNext
  | run (k : Nat) (e : RunEvent)
  /-- An attempt of the `i`-th activity that the run has scheduled starts on the worker. -/
  | startAttempt (k i worker : Nat)
  | attempt (i : Nat) (step : AttemptStep)
  /-- The chunks of a run are staged, or its row goes. -/
  | stage (workflowRunId : RunId) (chunks : Option (List StagedChunk))
  /-- The rows of the other tables change. -/
  | elsewhere (otherRows : ResidueTable → Nat) (auditLogs : Nat)
  /-- A worker starts again. -/
  | restart (worker : Nat)

namespace WorkspaceTables

variable (t : WorkspaceTables)

/-- Other tables are emptied. -/
def emptyOthers (tables : List ResidueTable) : WorkspaceTables :=
  { t with otherRows := fun table => if table ∈ tables then 0 else t.otherRows table }

/-- `delete_workspace_data`. -/
def deleteWorkspaceData (workspaceId : String) : WorkspaceTables :=
  { t.emptyOthers [.workspaceMetadata] with
    documents := t.documents.filter fun d => d.row.workspaceId ≠ workspaceId }

/-- `delete_workspace_side_tables` and `delete_workspace_eval_data`. -/
def deleteSideTables : WorkspaceTables :=
  { t.emptyOthers [.ingestionEvents, .redactionAudit, .evalQueryEvents, .evalFeedback,
      .evalCases, .evalRuns] with
    deadLetters := .empty
    ledger := .empty }

end WorkspaceTables

namespace PurgedWorkspace

variable (s : PurgedWorkspace)

/-- `get_in_flight_document_ids`. -/
def inFlightDocumentIds : List String :=
  (s.tables.documents.rows.filter fun d => d.row.workspaceId = s.input.workspaceId ∧
    (d.row.status = .pending ∨ d.row.status = .processing)).map fun d => d.row.documentId

/-- `cancel_inflight_ingestion`: the workflow id is `ingest-{document_id}`. -/
def cancelInflightIngestion : PurgedWorkspace :=
  { s with
    runs := s.runs.map fun r =>
      match r.flow with
      | .ingestion run =>
        if run.origin.input.documentId ∈ s.inFlightDocumentIds ∧ ¬ run.ended then
          { r with cancelRequested := true }
        else r
      | .conversation _ => r }

/-- `delete_workspace_collection` on a worker. -/
def deleteWorkspaceCollection (worker : Nat) : PurgedWorkspace :=
  match s.tables.collection with
  | none => s
  | some _ =>
    { s with
      tables := { s.tables with collection := none }
      workers := s.workers.set worker {} }

/-- The state after an attempt of the activity, `none` when the activity raises. -/
def perform (worker : Nat) (access : WeaviateAccess) : PurgeTask → Option PurgedWorkspace
  | .markWorkspacePurging => some { s with purgeStatus := some .purging }
  | .countBefore =>
    (residueReport s.input access (s.tables.stores s.input.workspaceId)).toOption.map fun _ => s
  | .cancelInflightIngestion => some s.cancelInflightIngestion
  | .purgePostgresDocuments =>
    some { s with tables := s.tables.deleteWorkspaceData s.input.workspaceId }
  | .purgePostgresSideTables => some { s with tables := s.tables.deleteSideTables }
  | .purgeWeaviateCollection =>
    match access with
    | .disconnected => none
    | .answers _ => some (s.deleteWorkspaceCollection worker)
    | _ => some s
  | .purgeAuditLogs =>
    some { s with
      tables := { s.tables with
        auditLogs := if s.input.retainAuditLogs then s.tables.auditLogs else 0 } }
  | .revokeWorkspaceApiKeys => some { s with tables := s.tables.emptyOthers [.apiKeysActive] }
  | .markWorkspacePurged => some { s with purgeStatus := some .purged }
  | .countAfter =>
    (residueReport s.input access (s.tables.stores s.input.workspaceId)).toOption.map
      fun counts => { s with purge := { s.purge with countsAfter := some counts } }
  | .recordPurgeReceipt => some s

/-- An attempt of the purge's `k`-th activity; a late one has no result any more. -/
def purgeStep (k worker : Nat) (access : WeaviateAccess) : Option PurgedWorkspace :=
  match PurgeTask.all[k]? with
  | none => none
  | some task =>
    if s.purge.next < k then none
    else
      (s.perform worker access task).map fun t =>
        { t with purge := if k = s.purge.next then { t.purge with landed := true } else s.purge }

/-- The purge goes on. -/
def purgeNext : Option PurgedWorkspace :=
  if s.purge.landed then
    some { s with purge := { s.purge with next := s.purge.next + 1, landed := false } }
  else none

/-- The event brings a result to the run that an attempt of its has. -/
def brings (k : Nat) (e : RunEvent) : Bool :=
  e.wellFormed &&
    match e.output with
    | none => true
    | some output => s.attempts.any fun a => a.run = k && a.phase = .finished output

/-- One event of a run. -/
def runStep (k : Nat) (e : RunEvent) : Option PurgedWorkspace :=
  if s.brings k e then
    (s.runs[k]?.bind fun r => r.step e).map fun r => { s with runs := s.runs.set k r }
  else none

/-- An attempt starts. -/
def startAttempt (k i worker : Nat) : Option PurgedWorkspace :=
  (s.runs[k]?.bind fun r => r.scheduled[i]?).map fun activity =>
    { s with attempts := s.attempts ++ [{ run := k, worker := worker, activity := activity }] }

/-- What a step of an attempt does. -/
def attemptEffect (i : Nat) (step : AttemptStep) : Option AttemptEffect :=
  match s.attempts[i]? with
  | none => none
  | some a =>
    match s.workers[a.worker]? with
    | none => none
    | some caches =>
      a.step s.input.workspaceId s.purgeStatus s.staging s.tables caches step

/-- One step of an attempt. -/
def attemptStep (i : Nat) (step : AttemptStep) : Option PurgedWorkspace :=
  (s.attemptEffect i step).map fun effect =>
    { s with
      tables := effect.tables
      workers := s.workers.set effect.attempt.worker effect.caches
      attempts := s.attempts.set i effect.attempt }

/-- One event. -/
def step : PurgedEvent → Option PurgedWorkspace
  | .purge k worker access => s.purgeStep k worker access
  | .purgeNext => s.purgeNext
  | .run k e => s.runStep k e
  | .startAttempt k i worker => s.startAttempt k i worker
  | .attempt i step => s.attemptStep i step
  | .stage workflowRunId chunks =>
    some { s with staging := fun r => if r = workflowRunId then chunks else s.staging r }
  | .elsewhere otherRows auditLogs =>
    some { s with tables := { s.tables with otherRows := otherRows, auditLogs := auditLogs } }
  | .restart worker => some { s with workers := s.workers.set worker {} }

/-- What the event creates in the stores. -/
def created : PurgedEvent → List CreatedItem
  | .attempt i step => ((s.attemptEffect i step).map AttemptEffect.created).getD []
  | _ => []

end PurgedWorkspace

end Inherent
