import Inherent.Native.DeadLetter

/-!
# The dead-letter table in use

Retry and abandon requests, each of them a read of the row followed by separate updates, between
the runs of the documents: a run that succeeds resolves the rows of its document, a run that
fails adds one.  Every call may be lost or may take effect without its answer.
-/

namespace Inherent

/-- Where a request is between two of its calls. -/
inductive DeadLetterRequest where
  /-- The retry route has read the row and found it unresolved. -/
  | retry (job : DeadLetterRow)
  /-- It has incremented the retry count. -/
  | incremented (job : DeadLetterRow)
  /-- The trigger has raised. -/
  | failed (job : DeadLetterRow)
  /-- The abandon route has found the row. -/
  | abandon (jobId : Nat)
  | answered

/-- The table and the runs, the requests, what the runs that reached their end came to, and the
    jobs that a successful run of their document has resolved so far. -/
structure DeadLetterSystem extends RetryState where
  requests : List DeadLetterRequest := []
  /-- The number of a run, and what it records if it failed. -/
  results : List (Nat × Option AddDeadLetterCall) := []
  resolvedJobs : List Nat := []

/-- What can happen. -/
inductive DeadLetterEvent where
  /-- An upload message reaches the trigger. -/
  | deliver (message : Message) (f : RetryFaults)
  /-- `retry_dead_letter_job` reads the row. -/
  | readRetry (jobId : Nat) (workspaceId : String)
  /-- The `k`-th request calls `increment_dead_letter_retry`. -/
  | increment (k : Nat) (outcome : CallOutcome)
  /-- It calls the trigger. -/
  | trigger (k : Nat) (f : RetryFaults)
  /-- It resets the status to `pending`. -/
  | reset (k : Nat) (outcome : CallOutcome)
  /-- `abandon_dead_letter_job` reads the row. -/
  | readAbandon (jobId : Nat) (workspaceId : String)
  /-- The `k`-th request sets the status to `abandoned`. -/
  | abandon (k : Nat) (outcome : CallOutcome)
  /-- The `i`-th run has stored its document. -/
  | succeed (i : Nat)
  | fail (i : Nat) (workflowRunId : RunId) (errorMessage : String)
  /-- An attempt of `resolve_dead_letter_jobs` of the `i`-th run takes effect. -/
  | resolve (i : Nat) (now : Timestamp)
  /-- An attempt of its `record_dead_letter` takes effect. -/
  | record (i : Nat)
  /-- The run ends, or is terminated. -/
  | close (i : Nat)
  /-- A failed flush of a conversation is recorded. -/
  | recordFlush (job : DeadLetterJob)

/-- `start_workflow` under `_SUPERSEDE_CONFLICT_POLICY`: an open run of the document is
    terminated. -/
def supersedeWorkflow (input : DocumentIngestionInput) (s : RetryState) : RetryState :=
  let workflowId := ingestWorkflowId input.documentId
  { s with
    runs := s.runs.map (fun run =>
        if run.workflowId = workflowId then { run with isOpen := false } else run) ++
      [{ workflowId := workflowId, input := input }] }

/-- `trigger_workflow_async(message)` for a message of the queue, when nothing raises; one that
    raises leaves the message to be delivered again. -/
def deliverUpload (c : TriggerConfig) (f : RetryFaults) (message : Message) (s : RetryState) :
    RetryState :=
  match DocumentUploadMessage.parse c.pydantic message with
  | none => deadLetterPoison c f message s
  | some uploadMessage => supersedeWorkflow (c.uploads.workflowInput uploadMessage) s

/-- The unresolved jobs of a document. -/
def DeadLetterTable.outstanding (t : DeadLetterTable) (documentId : String) : List Nat :=
  (t.rows.rows.filter fun r => r.documentId = documentId && r.status.unresolved).map
    DeadLetterRow.id

/-- `resolve_owned_dead_letter_job`, `none` for an error. -/
def DeadLetterTable.getOwned (t : DeadLetterTable) (jobId : Nat) (workspaceId : String) :
    Option DeadLetterRow :=
  let stripped := String.ofList (PyStr.strip workspaceId.toList)
  if stripped = "" then none
  else (t.get jobId).filter fun job => job.workspaceId = stripped

namespace DeadLetterSystem

/-- A request goes on. -/
def goOn (s : DeadLetterSystem) (k : Nat) (request : DeadLetterRequest) : DeadLetterSystem :=
  { s with requests := s.requests.set k request }

/-- A call changes the table, if it takes effect. -/
def write (s : DeadLetterSystem) (outcome : CallOutcome)
    (f : DeadLetterTable → DeadLetterTable) : DeadLetterSystem :=
  if outcome.landed then { s with jobs := f s.jobs } else s

/-- The `i`-th run, which is open, comes to its result. -/
def finish (s : DeadLetterSystem) (i : Nat)
    (result : DocumentIngestionInput → Option AddDeadLetterCall) : Option DeadLetterSystem :=
  match s.runs[i]? with
  | some run =>
    if run.isOpen ∧ i ∉ s.results.map Prod.fst then
      some { s with results := s.results ++ [(i, result run.input)] }
    else none
  | none => none

/-- One event. -/
def step (c : TriggerConfig) (s : DeadLetterSystem) : DeadLetterEvent → Option DeadLetterSystem
  | .deliver message f => some { s with toRetryState := deliverUpload c f message s.toRetryState }
  | .readRetry jobId workspaceId =>
    match admitRetry {} jobId workspaceId s.toRetryState with
    | .ok job => some { s with requests := s.requests ++ [.retry job] }
    | .error _ => some s
  | .increment k outcome =>
    match s.requests[k]? with
    | some (.retry job) =>
      -- an exception here is not caught by the route
      let next := if outcome = .ok then .incremented job else .answered
      some ((s.write outcome fun t => t.incrementRetry job.id).goOn k next)
    | _ => none
  | .trigger k f =>
    match s.requests[k]? with
    | some (.incremented job) =>
      match triggerWorkflowAsync c f job.originalMessage s.toRetryState with
      | (s', .ok _) => some ({ s with toRetryState := s' }.goOn k .answered)
      | (s', .error _) => some ({ s with toRetryState := s' }.goOn k (.failed job))
    | _ => none
  | .reset k outcome =>
    match s.requests[k]? with
    | some (.failed job) =>
      some ((s.write outcome fun t => t.updateStatus job.id .pending).goOn k .answered)
    | _ => none
  | .readAbandon jobId workspaceId =>
    match s.jobs.getOwned jobId workspaceId with
    | some _ => some { s with requests := s.requests ++ [.abandon jobId] }
    | none => some s
  | .abandon k outcome =>
    match s.requests[k]? with
    | some (.abandon jobId) =>
      some ((s.write outcome fun t => t.updateStatus jobId .abandoned).goOn k .answered)
    | _ => none
  | .succeed i => s.finish i fun _ => none
  | .fail i workflowRunId errorMessage =>
    s.finish i fun input => some (input.deadLetter workflowRunId errorMessage)
  | .resolve i now =>
    match s.runs[i]?, s.results.lookup i with
    | some run, some none =>
      some { s with
        jobs := s.jobs.resolveForDocument run.input.documentId now
        resolvedJobs := s.resolvedJobs ++ s.jobs.outstanding run.input.documentId }
    | _, _ => none
  | .record i =>
    match s.results.lookup i with
    | some (some call) => some { s with jobs := (s.jobs.add call).1 }
    | _ => none
  | .close i =>
    some { s with runs := s.runs.modify i fun run => { run with isOpen := false } }
  | .recordFlush job => some { s with jobs := (s.jobs.add job.deadLetter).1 }

end DeadLetterSystem

end Inherent
