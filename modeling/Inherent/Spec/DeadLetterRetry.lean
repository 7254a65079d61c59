import Inherent.Spec.DeadLetterRoundTrip
import Inherent.Spec.DeadLetterTable

/-!
# What a retry reports

The retry route takes any return of the trigger for a start, and the trigger returns the empty
id for a message that it cannot parse, after recording it once more.  So a retry is honest
exactly when the payload is parsed, or the request fails before the payload is looked at and
the job is `pending` again.
-/

namespace Inherent

/-- A call that some writer of the dead-letter table makes. -/
inductive Written (p : Pydantic) : AddDeadLetterCall → Prop where
  | document (input : DocumentIngestionInput) (workflowRunId : RunId) (errorMessage : String) :
      Written p (input.deadLetter workflowRunId errorMessage)
  | flush (job : DeadLetterJob) : Written p job.deadLetter
  | poison (message : Message) (call : AddDeadLetterCall)
      (hparse : DocumentUploadMessage.parse p message = none)
      (hcall : poisonDeadLetter p message = some call) : Written p call

/-- The trigger can start a run for the payload. -/
def startable (c : TriggerConfig) (message : Message) : Bool :=
  (DocumentUploadMessage.parse c.pydantic message).isSome

/-- The payload of a failed document run can be started when its input is valid. -/
theorem startable_deadLetter (c : TriggerConfig) (input : DocumentIngestionInput)
    (workflowRunId : RunId) (errorMessage : String) :
    startable c (input.deadLetter workflowRunId errorMessage).originalMessage = input.valid := by
  have hmessage : (input.deadLetter workflowRunId errorMessage).originalMessage =
      input.reconstructOriginalMessage := rfl
  rw [startable, hmessage, parse_reconstructOriginalMessage]
  cases input.valid <;> rfl

/-- Only the payload of a failed document run can be started. -/
theorem startable_of_written {c : TriggerConfig} {call : AddDeadLetterCall}
    (h : Written c.pydantic call) (hstart : startable c call.originalMessage = true) :
    ∃ input : DocumentIngestionInput, input.valid = true ∧
      ∃ workflowRunId errorMessage, call = input.deadLetter workflowRunId errorMessage := by
  cases h with
  | document input workflowRunId errorMessage =>
    rw [startable_deadLetter] at hstart
    exact ⟨input, hstart, workflowRunId, errorMessage, rfl⟩
  | flush job =>
    -- a flush and a poison message are no upload messages
    have hmessage : job.deadLetter.originalMessage = job.payload := rfl
    rw [startable, hmessage, parse_payload] at hstart
    exact absurd hstart Bool.false_ne_true
  | poison message call hparse hcall =>
    rw [startable, originalMessage_poisonDeadLetter hcall, hparse] at hstart
    exact absurd hstart Bool.false_ne_true

/-! ## Honesty -/

/-- The run that processes a payload. -/
def runFor (c : TriggerConfig) (m : DocumentUploadMessage) : StartedRun where
  workflowId := ingestWorkflowId m.documentId
  input := c.uploads.workflowInput m

/-- A success means that a run for the payload of the job was started. -/
def ReportsStart (c : TriggerConfig) (f : RetryFaults) (jobId : Nat) (workspaceId : String)
    (s : RetryState) : Prop :=
  ∀ id workflowId, (retryDeadLetterJob c f jobId workspaceId s).2 = .retried id workflowId →
    ∃ job ∈ s.jobs.get jobId, ∃ m ∈ DocumentUploadMessage.parse c.pydantic job.originalMessage,
      workflowId = (runFor c m).workflowId ∧
        (retryDeadLetterJob c f jobId workspaceId s).1.runs = s.runs ++ [runFor c m]

/-- For a payload that cannot be started the route answers an error, adds no record, and leaves
    the job in another status than `retrying`. -/
def RejectsPoison (c : TriggerConfig) (f : RetryFaults) (jobId : Nat) (workspaceId : String)
    (s : RetryState) : Prop :=
  ∀ job, admitRetry f jobId workspaceId s = .ok job →
    startable c job.originalMessage = false →
    (retryDeadLetterJob c f jobId workspaceId s).2.isError = true ∧
      (retryDeadLetterJob c f jobId workspaceId s).1.jobs.rows.size = s.jobs.rows.size ∧
      ∀ row ∈ (retryDeadLetterJob c f jobId workspaceId s).1.jobs.get jobId,
        row.status ≠ .retrying

/-- The request fails before the payload is looked at, and the job is not left `retrying`: the
    increment raises without effect on a `pending` job, or Temporal cannot be reached and the
    reset lands. -/
def RetryFaults.stopsEarly (f : RetryFaults) (job : DeadLetterRow) : Bool :=
  match f.increment with
  | .raised landed _ => !landed && job.status ≠ .retrying
  | .ok => f.connect ≠ .ok && f.reset.landed

/-! ## What the trigger does -/

/-- A trigger that returns has started a run for the message, or could not parse it and returns
    the empty id. -/
private theorem triggerWorkflowAsync_ok {c : TriggerConfig} {f : RetryFaults} {message : Message}
    {s s' : RetryState} {workflowId : String}
    (h : triggerWorkflowAsync c f message s = (s', .ok workflowId)) :
    f.connect = .ok ∧ ∀ m ∈ DocumentUploadMessage.parse c.pydantic message,
      workflowId = (runFor c m).workflowId ∧ s'.runs = s.runs ++ [runFor c m] := by
  unfold triggerWorkflowAsync at h
  split at h
  · cases h
  · rename_i hconnect
    -- the empty id is returned only for a message that is not parsed
    refine ⟨hconnect, fun m hm => ?_⟩
    rw [Option.mem_def] at hm
    simp only [hm] at h
    split at h
    · cases h
    · unfold startWorkflow at h
      dsimp only at h
      split at h
      · cases h
      · split at h
        · obtain ⟨rfl, hid⟩ := Prod.mk.inj h
          exact ⟨(Except.ok.inj hid).symm, rfl⟩
        · cases h

/-- A message that cannot be parsed never makes a connected trigger raise. -/
private theorem triggerWorkflowAsync_poison {c : TriggerConfig} {f : RetryFaults}
    {message : Message} (s : RetryState) (hconnect : f.connect = .ok)
    (hpoison : startable c message = false) :
    triggerWorkflowAsync c f message s = (deadLetterPoison c f message s, .ok "") := by
  unfold triggerWorkflowAsync
  rw [startable, Option.isSome_eq_false_iff, Option.isNone_iff_eq_none] at hpoison
  rw [hconnect, hpoison]

/-! ## The admission -/

/-- A retry is answered with an error, or the job with the id is retried. -/
private theorem admitRetry_cases (f : RetryFaults) (jobId : Nat) (workspaceId : String)
    (s : RetryState) :
    (∃ result, admitRetry f jobId workspaceId s = .error result ∧ result.isError = true) ∨
      ∃ job, admitRetry f jobId workspaceId s = .ok job ∧ s.jobs.get jobId = some job := by
  unfold admitRetry
  dsimp only
  split
  · exact .inl ⟨_, rfl, rfl⟩
  · split
    · exact .inl ⟨_, rfl, rfl⟩
    · split
      · exact .inl ⟨_, rfl, rfl⟩
      · -- the row is read once; its workspace and its status are then checked
        rename_i job hget
        split
        · exact .inl ⟨_, rfl, rfl⟩
        · split
          · exact .inr ⟨job, rfl, hget⟩
          · exact .inl ⟨_, rfl, rfl⟩

/-- The job that is retried is the one with the id. -/
private theorem admitRetry_ok {f : RetryFaults} {jobId : Nat} {workspaceId : String}
    {s : RetryState} {job : DeadLetterRow} (h : admitRetry f jobId workspaceId s = .ok job) :
    s.jobs.get jobId = some job := by
  obtain ⟨result, herror, -⟩ | ⟨job', hok, hget⟩ := admitRetry_cases f jobId workspaceId s
  · cases h.symm.trans herror
  · cases h.symm.trans hok
    exact hget

/-- A retry that is not admitted is answered with an error. -/
private theorem admitRetry_error {f : RetryFaults} {jobId : Nat} {workspaceId : String}
    {s : RetryState} {result : RouteResult} (h : admitRetry f jobId workspaceId s = .error result) :
    result.isError = true := by
  obtain ⟨result', herror, hresult⟩ | ⟨job, hok, -⟩ := admitRetry_cases f jobId workspaceId s
  · cases h.symm.trans herror
    exact hresult
  · cases h.symm.trans hok

/-! ## When a retry is honest -/

/-- A retry that is admitted reports a start only for a payload that is parsed, or for poison. -/
private theorem retried_cases {c : TriggerConfig} {f : RetryFaults} {jobId : Nat}
    {workspaceId : String} {s : RetryState} {id : Nat} {workflowId : String}
    (h : (retryDeadLetterJob c f jobId workspaceId s).2 = .retried id workflowId) :
    ∃ job, admitRetry f jobId workspaceId s = .ok job ∧ f.increment = .ok ∧ f.connect = .ok ∧
      ∀ m ∈ DocumentUploadMessage.parse c.pydantic job.originalMessage,
        workflowId = (runFor c m).workflowId ∧
          (retryDeadLetterJob c f jobId workspaceId s).1.runs = s.runs ++ [runFor c m] := by
  unfold retryDeadLetterJob at h ⊢
  cases haccept : admitRetry f jobId workspaceId s with
  | error result =>
    rw [haccept] at h
    -- a request that is not admitted reports no start
    obtain rfl : result = .retried id workflowId := h
    exact absurd (admitRetry_error haccept) Bool.false_ne_true
  | ok job =>
    rw [haccept] at h
    refine ⟨job, rfl, ?_⟩
    cases hinc : f.increment with
    | raised landed error => rw [hinc] at h; cases h
    | ok =>
      rw [hinc] at h
      dsimp only at h ⊢
      split at h
      · rename_i s' workflowId' htrigger
        obtain ⟨-, rfl⟩ := RouteResult.retried.inj h
        obtain ⟨hconnect, hruns⟩ := triggerWorkflowAsync_ok htrigger
        exact ⟨rfl, hconnect, hruns⟩
      · split at h <;> cases h

/-- A request that fails at the increment leaves the row as it was, or `retrying`. -/
private theorem retry_of_increment_raised {c : TriggerConfig} {f : RetryFaults} {jobId : Nat}
    {workspaceId : String} {s : RetryState} {job : DeadLetterRow} {landed : Bool} {error : String}
    (haccept : admitRetry f jobId workspaceId s = .ok job)
    (hinc : f.increment = .raised landed error) :
    retryDeadLetterJob c f jobId workspaceId s =
      (if landed then { s with jobs := s.jobs.incrementRetry jobId } else s, .raised error) := by
  unfold retryDeadLetterJob
  rw [haccept, hinc]

/-- A request whose trigger cannot connect answers an error and resets the row. -/
private theorem retry_of_connect_raised {c : TriggerConfig} {f : RetryFaults} {jobId : Nat}
    {workspaceId : String} {s : RetryState} {job : DeadLetterRow} {landed : Bool} {error : String}
    (haccept : admitRetry f jobId workspaceId s = .ok job) (hinc : f.increment = .ok)
    (hconnect : f.connect = .raised landed error) :
    (retryDeadLetterJob c f jobId workspaceId s).2.isError = true ∧
      (retryDeadLetterJob c f jobId workspaceId s).1.jobs =
        if f.reset.landed then (s.jobs.incrementRetry jobId).updateStatus jobId .pending
        else s.jobs.incrementRetry jobId := by
  unfold retryDeadLetterJob triggerWorkflowAsync
  rw [haccept, hinc, hconnect]
  dsimp only
  cases f.reset with
  | ok => exact ⟨rfl, rfl⟩
  | raised landed error => cases landed <;> exact ⟨rfl, rfl⟩

/-- A request that reaches the trigger with poison reports a start. -/
private theorem retry_of_poison {c : TriggerConfig} {f : RetryFaults} {jobId : Nat}
    {workspaceId : String} {s : RetryState} {job : DeadLetterRow}
    (haccept : admitRetry f jobId workspaceId s = .ok job) (hinc : f.increment = .ok)
    (hconnect : f.connect = .ok) (hpoison : startable c job.originalMessage = false) :
    (retryDeadLetterJob c f jobId workspaceId s).2 = .retried jobId "" := by
  unfold retryDeadLetterJob
  rw [haccept, hinc]
  dsimp only
  rw [triggerWorkflowAsync_poison _ hconnect hpoison]

/-- The row after the increment. -/
private theorem status?_incremented {f : RetryFaults} {jobId : Nat} {workspaceId : String}
    {s : RetryState} {job : DeadLetterRow} (haccept : admitRetry f jobId workspaceId s = .ok job) :
    (s.jobs.incrementRetry jobId).status? jobId = some .retrying := by
  rw [DeadLetterTable.status?_incrementRetry, if_pos rfl, DeadLetterTable.status?,
    admitRetry_ok haccept]
  rfl

/-- A row that has another status than `retrying`. -/
private theorem not_retrying_iff {t : DeadLetterTable} {jobId : Nat} {status : DeadLetterStatus}
    (h : t.status? jobId = some status) :
    (∀ row ∈ t.get jobId, row.status ≠ .retrying) ↔ status ≠ .retrying := by
  obtain ⟨row, hget, rfl⟩ := Option.map_eq_some_iff.mp h
  rw [hget]
  constructor
  · exact fun hall => hall row rfl
  · intro hne row' hrow'
    obtain rfl := Option.some.inj hrow'
    exact hne

/-- Poison is rejected exactly when the request stops early. -/
private theorem rejects_iff_stopsEarly {c : TriggerConfig} {f : RetryFaults} {jobId : Nat}
    {workspaceId : String} {s : RetryState} {job : DeadLetterRow}
    (haccept : admitRetry f jobId workspaceId s = .ok job)
    (hpoison : startable c job.originalMessage = false) :
    ((retryDeadLetterJob c f jobId workspaceId s).2.isError = true ∧
      (retryDeadLetterJob c f jobId workspaceId s).1.jobs.rows.size = s.jobs.rows.size ∧
      ∀ row ∈ (retryDeadLetterJob c f jobId workspaceId s).1.jobs.get jobId,
        row.status ≠ .retrying) ↔ f.stopsEarly job = true := by
  have hstatus : s.jobs.status? jobId = some job.status := by
    rw [DeadLetterTable.status?, admitRetry_ok haccept]
    rfl
  unfold RetryFaults.stopsEarly
  cases hinc : f.increment with
  | raised landed error =>
    rw [retry_of_increment_raised haccept hinc]
    cases landed with
    | false =>
      -- nothing was written, so the row has the status that it had
      simp only [Bool.false_eq_true, if_false, RouteResult.isError, true_and, Bool.not_false,
        Bool.true_and, decide_eq_true_eq]
      exact not_retrying_iff hstatus
    | true =>
      -- the update has happened, so the row is `retrying`
      have hrow := not_retrying_iff (status?_incremented haccept)
      simp only [if_true, hrow]
      simp
  | ok =>
    cases hconnect : f.connect with
    | ok =>
      -- the trigger returns for poison, and the route takes that for a start
      rw [retry_of_poison haccept hinc hconnect hpoison]
      simp [RouteResult.isError]
    | raised landed error =>
      -- the payload is not looked at: the row is `pending` again if the reset lands
      obtain ⟨herror, hjobs⟩ := retry_of_connect_raised (c := c) haccept hinc hconnect
      rw [herror, hjobs]
      cases f.reset.landed with
      | true =>
        have hreset : ((s.jobs.incrementRetry jobId).updateStatus jobId .pending).status? jobId =
            some .pending := by
          rw [DeadLetterTable.status?_updateStatus, if_pos rfl, status?_incremented haccept]
          rfl
        simp only [if_true, not_retrying_iff hreset]
        simp [DeadLetterTable.updateStatus, DeadLetterTable.incrementRetry]
      | false =>
        simp only [Bool.false_eq_true, if_false, not_retrying_iff (status?_incremented haccept)]
        simp

/-- A retry is honest exactly when the payload of the job that it admits can be started, or it
    stops before it looks at the payload. -/
theorem honest_iff_startable (c : TriggerConfig) (f : RetryFaults) (jobId : Nat)
    (workspaceId : String) (s : RetryState) :
    ReportsStart c f jobId workspaceId s ∧ RejectsPoison c f jobId workspaceId s ↔
      ∀ job, admitRetry f jobId workspaceId s = .ok job →
        startable c job.originalMessage = true ∨ f.stopsEarly job = true := by
  constructor
  · rintro ⟨-, hrejects⟩ job haccept
    cases hstart : startable c job.originalMessage with
    | true => exact .inl rfl
    | false => exact .inr ((rejects_iff_stopsEarly haccept hstart).mp (hrejects job haccept hstart))
  · intro h
    refine ⟨fun id workflowId hretried => ?_, fun job haccept hpoison => ?_⟩
    · obtain ⟨job, haccept, hinc, hconnect, hruns⟩ := retried_cases hretried
      -- a request that reports a start did not stop early
      have hstart : startable c job.originalMessage = true := by
        refine (h job haccept).resolve_right fun hearly => ?_
        simp [RetryFaults.stopsEarly, hinc, hconnect] at hearly
      obtain ⟨m, hm⟩ := Option.isSome_iff_exists.mp hstart
      exact ⟨job, admitRetry_ok haccept, m, hm, hruns m hm⟩
    · have hearly := (h job haccept).resolve_left (by simp [hpoison])
      exact (rejects_iff_stopsEarly haccept hpoison).mpr hearly

/-- A flush whose chunking failed. -/
def failedFlush : DeadLetterJob where
  documentId := "conv"
  workspaceId := "ws"
  userId := "owner"
  workflowRunId := "run"
  externalId := "session"
  workflowId := "conversation-memory-ws-session"
  stage := "chunk_conversation"
  turnIds := ["t1"]
  turnCount := 1
  redactedTurns := some [{
    turnId := "t1"
    text := "hello"
    role := some "user" }]
  errorMessage := "Activity task failed"
  errorType := "conversation_flush_chunk_conversation_failed"
  dedupKey := "t1"

/-- The table with its record. -/
def failedFlushState : RetryState where
  jobs := (({} : DeadLetterTable).add failedFlush.deadLetter).1

/-- The retry of a failed flush reports a start, but starts nothing, records the payload once
    more, and leaves the job `retrying`. -/
theorem not_honest_failedFlush :
    (retryDeadLetterJob sampleTrigger {} 0 "ws" failedFlushState).2 = .retried 0 "" ∧
      (retryDeadLetterJob sampleTrigger {} 0 "ws" failedFlushState).1.runs = [] ∧
      (retryDeadLetterJob sampleTrigger {} 0 "ws" failedFlushState).1.jobs.rows.size = 2 ∧
      (retryDeadLetterJob sampleTrigger {} 0 "ws" failedFlushState).1.jobs.status? 0 =
        some .retrying ∧
      ¬ (ReportsStart sampleTrigger {} 0 "ws" failedFlushState ∧
        RejectsPoison sampleTrigger {} 0 "ws" failedFlushState) := by
  have hresult : (retryDeadLetterJob sampleTrigger {} 0 "ws" failedFlushState).2 =
      .retried 0 "" := by decide
  have hruns : (retryDeadLetterJob sampleTrigger {} 0 "ws" failedFlushState).1.runs = [] := by
    decide
  refine ⟨hresult, hruns, by decide, by decide, ?_⟩
  rintro ⟨hreports, -⟩
  obtain ⟨job, -, m, -, -, hstarted⟩ := hreports 0 "" hresult
  rw [hruns] at hstarted
  cases hstarted

end Inherent
