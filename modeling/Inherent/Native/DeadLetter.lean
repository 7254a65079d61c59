import Inherent.Native.ConversationWorkflow
import Inherent.Native.DocumentUpload

/-!
# The dead-letter table and its messages

A failed run records the message that a retry is to publish again.  `DocumentIngestionWorkflow`
rebuilds it from its input, `ConversationMemoryWorkflow` writes a payload of its own, and the
trigger keeps a message that it could not parse.  `DocumentUploadMessage` is parsed from such a
message by pydantic, whose conversion of numbers is a parameter.
-/

namespace Inherent

/-! ## Messages -/

/-- A JSON value; a number that is not an integer is kept as its text. -/
inductive JsonValue where
  | null
  | bool (b : Bool)
  | int (n : Int)
  | float (text : String)
  | str (s : String)
  | arr (values : List JsonValue)
  | obj (fields : List (String × JsonValue))

/-- A message: a JSON object. -/
abbrev Message := List (String × JsonValue)

/-- What the parser takes from pydantic and from `inh_contracts.source_url`. -/
structure Pydantic where
  /-- The conversion of a value to `int`. -/
  toInt : JsonValue → Option Int
  toInt_int : ∀ n, toInt (.int n) = some n
  sanitizeSourceUrl : String → Option String := fun url => some url
  /-- The text of the `ValidationError` of a message. -/
  errorText : Message → String := fun _ => ""

/-- A `str` field. -/
def JsonValue.toStr : JsonValue → Option String
  | .str s => some s
  | _ => none

/-- `unwrap_avro_union`, which turns what it does not know into `None`. -/
def JsonValue.unwrapAvroUnion : JsonValue → Option String
  | .str s => some s
  | .obj fields => (fields.lookup "string").bind JsonValue.toStr
  | _ => none

/-- A value of at most `max_length` characters, if there is one. -/
def withinLength (maxLength : Nat) (value : Option String) : Bool :=
  value.all fun s => s.length ≤ maxLength

/-- `StorageBackend`. -/
def storageBackends : List String := ["local", "s3", "gcs", "azure"]

/-- An optional field under `unwrap_avro_union`: the validator does not run on its default. -/
def Message.optional (message : Message) (name : String) : Option String :=
  (message.lookup name).bind JsonValue.unwrapAvroUnion

/-- A required `str` field. -/
def Message.required (message : Message) (name : String) : Option String :=
  (message.lookup name).bind JsonValue.toStr

/-- `max_length` of `uploaded_by`, `source`, `connection_id` and `sync_id`. -/
def maxLabelLength : Nat := 500

/-- `DocumentUploadMessage(**message)`, `none` for a `ValidationError`. -/
def DocumentUploadMessage.parse (p : Pydantic) (message : Message) :
    Option DocumentUploadMessage := do
  guard ((← message.required "event_type") = "document.uploaded")
  let documentId ← message.required "document_id"
  let workspaceId ← message.required "workspace_id"
  let userId ← message.required "user_id"
  let uploadedBy := message.optional "uploaded_by"
  guard (withinLength maxLabelLength uploadedBy)
  let filename ← message.required "filename"
  let originalFilename ← message.required "original_filename"
  let contentType ← message.required "content_type"
  let sizeBytes ← (message.lookup "size_bytes").bind p.toInt
  guard (0 < sizeBytes)
  let storageBackend ← message.required "storage_backend"
  guard (storageBackend ∈ storageBackends)
  let storagePath ← message.required "storage_path"
  let timestamp ← message.required "timestamp"
  -- `contract_version` has a default, but what is there must be a string
  guard ((message.lookup "contract_version").all fun v => v.toStr.isSome)
  let source := message.optional "source"
  guard (withinLength maxLabelLength source)
  let connectionId := message.optional "connection_id"
  guard (withinLength maxLabelLength connectionId)
  let syncId := message.optional "sync_id"
  guard (withinLength maxLabelLength syncId)
  return {
    documentId := documentId
    workspaceId := workspaceId
    userId := userId
    uploadedBy := uploadedBy
    filename := filename
    originalFilename := originalFilename
    contentType := contentType
    sizeBytes := sizeBytes.toNat
    storageBackend := storageBackend
    storagePath := storagePath
    storageBucket := message.optional "storage_bucket"
    storageUrl := message.optional "storage_url"
    timestamp := timestamp
    source := source
    connectionId := connectionId
    syncId := syncId
    sourceUrl := ((message.lookup "source_url").bind JsonValue.toStr).bind p.sanitizeSourceUrl }

/-! ## The payloads -/

/-- A `str | None` field of a payload. -/
def JsonValue.ofOption : Option String → JsonValue
  | none => .null
  | some s => .str s

/-- `_reconstruct_original_message`. -/
def DocumentIngestionInput.reconstructOriginalMessage (input : DocumentIngestionInput) : Message :=
  [("event_type", .str "document.uploaded"),
    ("document_id", .str input.documentId),
    ("workspace_id", .str input.workspaceId),
    ("user_id", .str input.userId),
    ("filename", .str input.filename),
    ("original_filename", .str input.originalFilename),
    ("content_type", .str input.contentType),
    ("size_bytes", .int input.sizeBytes),
    ("storage_backend", .str input.storageBackend),
    ("storage_path", .str input.storagePath),
    ("storage_bucket", .ofOption input.storageBucket),
    ("storage_url", .ofOption input.storageUrl),
    ("timestamp", .str input.timestamp)]

/-- A redacted turn in the payload of a flush. -/
def RedactedTurn.payload (rt : RedactedTurn) : JsonValue :=
  .obj [("turn_id", .str rt.turnId), ("role", .ofOption rt.role), ("text", .str rt.text),
    ("original_index", .int rt.originalIndex)]

/-- `raw_text_omitted_reason`. -/
def rawTextOmittedReason : String :=
  "redact_turns failed before producing output -- raw pre-redaction text is deliberately not " ++
    "stored here (see redact.py's module docstring). Recover it from this workflow's own " ++
    "Temporal event history: the add_turn signal payload for each turn_id above."

/-- The `payload` of `_dead_letter_flush`. -/
def DeadLetterJob.payload (job : DeadLetterJob) : Message :=
  [("reason", .str "conversation_flush_failed"),
    ("stage", .str job.stage),
    ("workspace_id", .str job.workspaceId),
    ("external_id", .str job.externalId),
    ("document_id", .str job.documentId),
    ("user_id", .str job.userId),
    ("workflow_id", .str job.workflowId),
    ("workflow_run_id", .str job.workflowRunId),
    ("turn_ids", .arr (job.turnIds.map .str)),
    ("turn_count", .int job.turnCount),
    match job.redactedTurns with
    | some redacted => ("redacted_turns", .arr (redacted.map RedactedTurn.payload))
    | none => ("raw_text_omitted_reason", .str rawTextOmittedReason)]

/-- `_classify_error`, of the workflow and of the trigger. -/
def classifyError (errorMessage : String) : String :=
  let lower := errorMessage.toList.map Char.toLower
  let contains := fun keyword : String => keyword.toList <:+: lower
  if contains "extract" ∨ contains "parse" then "extraction_failed"
  else if contains "storage" ∨ contains "postgresql" ∨ contains "weaviate" then "storage_failed"
  else if contains "timeout" ∨ contains "timed out" then "timeout"
  else if contains "validation" ∨ contains "invalid" then "validation_failed"
  else if contains "fetch" ∨ contains "not found" ∨ contains "download" then "fetch_failed"
  else "unknown"

/-! ## The table -/

/-- The `status` of a dead-letter job. -/
inductive DeadLetterStatus where
  | pending
  | retrying
  | resolved
  | abandoned
  deriving DecidableEq, Repr

/-- `DEAD_LETTER_UNRESOLVED_STATUSES`. -/
def DeadLetterStatus.unresolved : DeadLetterStatus → Bool
  | .pending => true
  | .retrying => true
  | _ => false

/-- The arguments of `add_dead_letter_job`. -/
structure AddDeadLetterCall where
  documentId : String
  workspaceId : String
  userId : String
  workflowRunId : Option RunId
  originalMessage : Message
  errorMessage : String
  errorType : String
  dedupKey : String := ""

/-- A row of `dead_letter_jobs`. -/
structure DeadLetterRow extends AddDeadLetterCall where
  id : Nat
  retryCount : Nat := 0
  status : DeadLetterStatus := .pending
  resolvedAt : Option Timestamp := none

/-- The table with its sequence of ids. -/
structure DeadLetterTable where
  rows : UniqueTable DeadLetterRow.id := .empty
  nextId : Nat := 0
  fresh : ∀ r ∈ rows.rows, r.id < nextId := by simp

/-- The row takes the key of the call: a row without a run id takes none. -/
def DeadLetterRow.conflicts (r : DeadLetterRow) (c : AddDeadLetterCall) : Bool :=
  c.workflowRunId.isSome && r.workflowRunId = c.workflowRunId && r.documentId = c.documentId &&
    r.dedupKey = c.dedupKey

namespace DeadLetterTable

/-- `get_dead_letter_job`. -/
def get (t : DeadLetterTable) (jobId : Nat) : Option DeadLetterRow := t.rows.find? jobId

/-- `add_dead_letter_job`: the table after it, and the id it returns. -/
def add (t : DeadLetterTable) (c : AddDeadLetterCall) : DeadLetterTable × Nat :=
  match t.rows.rows.find? fun r => r.conflicts c with
  | some r => (t, r.id)
  | none =>
    let row : DeadLetterRow := { c with id := t.nextId }
    ({  rows := t.rows.insertNew row
        nextId := t.nextId + 1
        fresh := by
          intro r hr
          cases UniqueTable.mem_of_mem_insertNew hr with
          | inl hr => exact Nat.lt_succ_of_lt (t.fresh r hr)
          | inr hr => exact hr ▸ Nat.lt_succ_self _ }, t.nextId)

/-- An `UPDATE` of the rows. -/
def update (t : DeadLetterTable) (f : DeadLetterRow → DeadLetterRow) (hf : ∀ r, (f r).id = r.id) :
    DeadLetterTable where
  rows := t.rows.update f hf
  nextId := t.nextId
  fresh := by
    intro r hr
    obtain ⟨r', hr', rfl⟩ := List.mem_map.mp hr
    rw [hf]
    exact t.fresh r' hr'

/-- `update_dead_letter_status`. -/
def updateStatus (t : DeadLetterTable) (jobId : Nat) (status : DeadLetterStatus) :
    DeadLetterTable :=
  t.update (fun r => if r.id = jobId then { r with status := status } else r)
    fun r => by split <;> rfl

/-- `increment_dead_letter_retry`. -/
def incrementRetry (t : DeadLetterTable) (jobId : Nat) : DeadLetterTable :=
  t.update (fun r =>
      if r.id = jobId then { r with
        retryCount := r.retryCount + 1
        status := .retrying }
      else r)
    fun r => by split <;> rfl

/-- `resolve_dead_letter_jobs_for_document`. -/
def resolveForDocument (t : DeadLetterTable) (documentId : String) (now : Timestamp) :
    DeadLetterTable :=
  t.update (fun r =>
      if r.documentId = documentId ∧ r.status.unresolved = true then { r with
        status := .resolved
        resolvedAt := some now }
      else r)
    fun r => by split <;> rfl

end DeadLetterTable

/-- What a run of `DocumentIngestionWorkflow` records when it fails. -/
def DocumentIngestionInput.deadLetter (input : DocumentIngestionInput) (workflowRunId : RunId)
    (errorMessage : String) : AddDeadLetterCall where
  documentId := input.documentId
  workspaceId := input.workspaceId
  userId := input.userId
  workflowRunId := some workflowRunId
  originalMessage := input.reconstructOriginalMessage
  errorMessage := errorMessage
  errorType := classifyError errorMessage

/-- What a failed flush of a conversation records. -/
def DeadLetterJob.deadLetter (job : DeadLetterJob) : AddDeadLetterCall where
  documentId := job.documentId
  workspaceId := job.workspaceId
  userId := job.userId
  workflowRunId := some job.workflowRunId
  originalMessage := job.payload
  errorMessage := job.errorMessage
  errorType := job.errorType
  dedupKey := job.dedupKey

/-- `message.get(name, "unknown")`; `none` for a value that is no string, which the insert
    rejects. -/
def Message.getOrUnknown (message : Message) (name : String) : Option String :=
  match message.lookup name with
  | none => some "unknown"
  | some value => value.toStr

/-- What the trigger records for a message that it cannot parse. -/
def poisonDeadLetter (p : Pydantic) (message : Message) : Option AddDeadLetterCall := do
  let errorMessage := "Invalid message format: " ++ p.errorText message
  return {
    documentId := ← message.getOrUnknown "document_id"
    workspaceId := ← message.getOrUnknown "workspace_id"
    userId := ← message.getOrUnknown "user_id"
    workflowRunId := none
    originalMessage := message
    errorMessage := errorMessage
    errorType := classifyError errorMessage }

/-! ## The trigger and the retry route -/

/-- How a call of a service ends: it returns, or it raises with a text, and then its effect may
    have happened all the same. -/
inductive CallOutcome where
  | ok
  | raised (landed : Bool) (error : String)
  deriving DecidableEq, Repr

/-- The effect has happened. -/
def CallOutcome.landed : CallOutcome → Bool
  | .ok => true
  | .raised landed _ => landed

/-- The outcomes of the calls that a retry makes. -/
structure RetryFaults where
  getJob : CallOutcome := .ok
  increment : CallOutcome := .ok
  connect : CallOutcome := .ok
  recordDeadLetter : CallOutcome := .ok
  ownerLookup : CallOutcome := .ok
  startWorkflow : CallOutcome := .ok
  reset : CallOutcome := .ok

/-- The services of the trigger. -/
structure TriggerConfig where
  uploads : UploadConfig
  pydantic : Pydantic
  /-- The trigger has its own `db_service`. -/
  hasDatabase : Bool := true
  alreadyStartedText : String := "Workflow execution already started"

/-- A run that was started, and whether it is still open. -/
structure StartedRun where
  workflowId : String
  input : DocumentIngestionInput
  isOpen : Bool := true
  deriving DecidableEq, Repr

/-- The dead-letter table and the runs. -/
structure RetryState where
  jobs : DeadLetterTable
  runs : List StartedRun := []

/-- The trigger returns a workflow id, or raises. -/
abbrev TriggerResult := Except String String

/-- `f"ingest-{document_id}"`. -/
def ingestWorkflowId (documentId : String) : String := "ingest-" ++ documentId

/-- `start_workflow` under `_REJECT_CONFLICT_POLICY`. -/
def startWorkflow (c : TriggerConfig) (f : RetryFaults) (input : DocumentIngestionInput)
    (s : RetryState) : RetryState × TriggerResult :=
  let workflowId := ingestWorkflowId input.documentId
  if s.runs.any fun run => run.workflowId = workflowId && run.isOpen then
    (s, .error c.alreadyStartedText)
  else
    let started := { s with runs := s.runs ++ [{ workflowId := workflowId, input := input }] }
    match f.startWorkflow with
    | .ok => (started, .ok workflowId)
    | .raised landed error => (if landed then started else s, .error error)

/-- The poison branch: the message is recorded, best-effort, and the empty id is returned. -/
def deadLetterPoison (c : TriggerConfig) (f : RetryFaults) (message : Message) (s : RetryState) :
    RetryState :=
  match poisonDeadLetter c.pydantic message with
  | some call =>
    if c.hasDatabase && f.recordDeadLetter.landed then { s with jobs := (s.jobs.add call).1 } else s
  | none => s

/-- `trigger_workflow_async(message, supersede_running=False)`. -/
def triggerWorkflowAsync (c : TriggerConfig) (f : RetryFaults) (message : Message)
    (s : RetryState) : RetryState × TriggerResult :=
  match f.connect with
  | .raised _ error => (s, .error error)
  | .ok =>
    match DocumentUploadMessage.parse c.pydantic message with
    | none => (deadLetterPoison c f message s, .ok "")
    | some uploadMessage =>
      match f.ownerLookup with
      | .raised _ error => (s, .error error)
      | .ok => startWorkflow c f (c.uploads.workflowInput uploadMessage) s

/-- What the route answers. -/
inductive RouteResult where
  | retried (jobId : Nat) (newWorkflowId : String)
  | httpError (statusCode : Nat) (detail : String)
  /-- An exception that no handler of the route catches. -/
  | raised (error : String)
  deriving DecidableEq, Repr

/-- The answer is an error. -/
def RouteResult.isError : RouteResult → Bool
  | .retried _ _ => false
  | _ => true

/-- The text of a status in the 409 answer. -/
def DeadLetterStatus.text : DeadLetterStatus → String
  | .pending => "pending"
  | .retrying => "retrying"
  | .resolved => "resolved"
  | .abandoned => "abandoned"

/-- `resolve_owned_dead_letter_job` and the status guard: the job to retry. -/
def admitRetry (f : RetryFaults) (jobId : Nat) (workspaceId : String) (s : RetryState) :
    Except RouteResult DeadLetterRow :=
  let stripped := String.ofList (PyStr.strip workspaceId.toList)
  if stripped = "" then .error (.httpError 422 "workspace_id must not be blank.")
  else
    match f.getJob with
    | .raised _ error => .error (.raised error)
    | .ok =>
      let notFound := RouteResult.httpError 404
        ("Dead-letter job " ++ toString jobId ++ " not found in workspace " ++ stripped ++ ".")
      match s.jobs.get jobId with
      | none => .error notFound
      | some job =>
        if job.workspaceId ≠ stripped then .error notFound
        else if job.status.unresolved then .ok job
        else .error (.httpError 409
          ("Job " ++ toString jobId ++ " has status '" ++ job.status.text ++ "', cannot retry"))

/-- `retry_dead_letter_job`. -/
def retryDeadLetterJob (c : TriggerConfig) (f : RetryFaults) (jobId : Nat) (workspaceId : String)
    (s : RetryState) : RetryState × RouteResult :=
  match admitRetry f jobId workspaceId s with
  | .error result => (s, result)
  | .ok job =>
    let incremented := { s with jobs := s.jobs.incrementRetry jobId }
    match f.increment with
    | .raised landed error => (if landed then incremented else s, .raised error)
    | .ok =>
      match triggerWorkflowAsync c f job.originalMessage incremented with
      | (s, .ok workflowId) => (s, .retried jobId workflowId)
      | (s, .error error) =>
        let reset := { s with jobs := s.jobs.updateStatus jobId .pending }
        match f.reset with
        | .ok => (reset, .httpError 500 ("Retry failed: " ++ error))
        | .raised landed error => (if landed then reset else s, .raised error)

end Inherent
