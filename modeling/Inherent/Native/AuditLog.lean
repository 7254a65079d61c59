import Inherent.ForStd.Run
import Inherent.ForStd.UniqueTable
import Inherent.Native.DeadLetter
import Inherent.Native.McpDispatch
import Inherent.Native.PyStr

/-!
# Audit events

The way of an audit event: `build_audit_event` and `publish_audit_event` of the public API
(`services/audit_publisher.py`), `AuditLogConsumer.handle` (`services/audit_consumer.py`),
`WriteAuditLogWorkflow` with its activities (`temporal/workflows/audit_log.py`,
`temporal/activities/audit_activities.py`), and `upsert_audit_log` and
`delete_workspace_audit_logs` (`services/audit_mongo_writer.py`).  The stream delivers an entry any number of times, also
after it has been acknowledged by another delivery; an activity may fail before it has any
effect or after it, when only its result is lost.
-/

namespace Inherent

/-! ## `build_audit_event` -/

/-- `MAX_SNIPPET_LENGTH`. -/
def maxSnippetLength : Nat := 200

/-- `MAX_RESULT_SNIPPETS`. -/
def maxResultSnippets : Nat := 5

/-- The first characters of a text. -/
def truncateText (text : String) (maxLength : Nat) : String :=
  String.ofList (text.toList.take maxLength)

/-- `truncate_snippet`. -/
def truncateSnippet (text : String) (maxLength : Nat) : String :=
  if text.length ≤ maxLength then text else truncateText text maxLength

/-- An entry of `result_snippets`, as `_build_result_snippets` makes them. -/
structure AuditSnippet where
  documentId : String
  filename : String
  snippet : String
  score : JsonValue
  chunkIndex : JsonValue

/-- The arguments of `build_audit_event`. -/
structure AuditArguments where
  workspaceId : String
  userId : String
  apiKeyId : String
  source : String
  queryType : String
  queryText : String
  queryFilters : Option Message := none
  resultCount : Nat
  resultSnippets : List AuditSnippet := []
  returnedChunkIds : List String := []
  llmResponse : Option String := none
  responseTimeMs : String
  requestId : Option String := none
  searchMode : Option String := none
  includeContext : Option Bool := none
  contextWindow : Option Int := none
  alpha : Option String := none
  riskCounts : Option Message := none
  principalType : Option String := none
  principalId : Option String := none
  surface : Option String := none
  toolName : Option String := none
  workspaceIds : Option (List String) := none
  outcome : Option String := none

/-- A snippet in the event. -/
def AuditSnippet.toJson (snippet : AuditSnippet) : JsonValue :=
  .obj [("document_id", .str snippet.documentId), ("filename", .str snippet.filename),
    ("snippet", .str (truncateSnippet snippet.snippet maxSnippetLength)),
    ("score", snippet.score), ("chunk_index", snippet.chunkIndex)]

/-- `event[name] = value`, when the value is given. -/
def optionalField (name : String) (value : Option JsonValue) : Message :=
  (value.map fun v => (name, v)).toList

/-- `build_audit_event`, for the two ids that `uuid4` mints and the time. -/
def buildAuditEvent (auditId freshRequestId now : String) (args : AuditArguments) : Message :=
  [("audit_id", .str auditId),
    ("workspace_id", .str args.workspaceId),
    ("user_id", .str args.userId),
    ("api_key_id", .str args.apiKeyId),
    ("source", .str args.source),
    ("query_type", .str args.queryType),
    ("query_text", .str (truncateText args.queryText maxQueryTextLength)),
    ("query_filters", .obj (args.queryFilters.getD [])),
    ("result_count", .int args.resultCount),
    ("result_snippets",
      .arr ((args.resultSnippets.take maxResultSnippets).map AuditSnippet.toJson)),
    ("returned_chunk_ids", .arr (args.returnedChunkIds.map .str)),
    ("llm_response", (args.llmResponse.map JsonValue.str).getD .null),
    ("response_time_ms", .float args.responseTimeMs),
    -- `request_id or str(uuid.uuid4())`
    ("request_id", .str
      (if args.requestId.getD "" = "" then freshRequestId else args.requestId.getD "")),
    ("query_timestamp", .str now)] ++
  optionalField "search_mode" (args.searchMode.map .str) ++
  optionalField "include_context" (args.includeContext.map .bool) ++
  optionalField "context_window" (args.contextWindow.map .int) ++
  optionalField "alpha" (args.alpha.map .float) ++
  optionalField "risk_counts" (args.riskCounts.map .obj) ++
  optionalField "principal_type" (args.principalType.map .str) ++
  optionalField "principal_id" (args.principalId.map .str) ++
  optionalField "surface" (args.surface.map .str) ++
  optionalField "tool_name" (args.toolName.map .str) ++
  optionalField "workspace_ids" (args.workspaceIds.map fun ids => .arr (ids.map .str)) ++
  optionalField "outcome" (args.outcome.map .str)

/-- The value of `Outcome`. -/
def AuditOutcome.value : AuditOutcome → String
  | .ok => "ok"
  | .error => "error"
  | .denied => "denied"

/-- The value of `principal_type`. -/
def PrincipalType.value : PrincipalType → String
  | .apiKey => "api_key"
  | .oauth => "oauth"

/-- The arguments that `_publish` of `mcp_server/audit.py` gives for the event of a tool call. -/
def AuditEvent.arguments (event : AuditEvent) (elapsedMs : String) : AuditArguments where
  workspaceId := event.workspaceId
  userId := event.userId
  apiKeyId := event.apiKeyId
  source := "api_key"
  queryType := "search"
  queryText := event.queryText
  resultCount := event.resultCount
  returnedChunkIds := event.returnedChunkIds
  responseTimeMs := elapsedMs
  principalType := some event.principalType.value
  principalId := some event.principalId
  surface := some "mcp"
  toolName := some event.toolName
  workspaceIds := some event.workspaceIds
  outcome := some event.outcome.value

/-- `getattr(r, "content_risk", None) or "none"`. -/
def resultRiskLevel (contentRisk : Option String) : String :=
  if contentRisk.getD "" = "" then "none" else contentRisk.getD ""

/-- `level` of a result in `count_results_by_risk`. -/
def riskBucket (contentRisk : Option String) : String :=
  if resultRiskLevel contentRisk ∈ ["none", "low", "medium", "high"] then resultRiskLevel contentRisk
  else "none"

/-- `count_results_by_risk`. -/
def countResultsByRisk (contentRisks : List (Option String)) : List (String × Nat) :=
  ["none", "low", "medium", "high"].map fun level =>
    (level, contentRisks.countP fun risk => riskBucket risk = level)

/-! ## The consumer -/

/-- `AuditLogConsumer.handle`: the workflow id for a message, or `none` when it is dropped for
    want of an `audit_id`. -/
def auditWorkflowId (message : Message) : Option String :=
  match message.lookup "audit_id" with
  | some (.str auditId) =>
    let stripped := PyStr.strip auditId.toList
    if stripped.isEmpty then none else some ("audit-" ++ String.ofList stripped)
  | _ => none

/-! ## The workflow -/

/-- `_REQUIRED_FIELDS`, sorted. -/
def auditRequiredFields : List String :=
  ["audit_id", "query_text", "query_timestamp", "query_type", "request_id", "response_time_ms",
    "result_count", "source", "user_id", "workspace_id"]

/-- `_VALID_SOURCES`, sorted. -/
def auditValidSources : List String := ["api_key", "chat", "dashboard"]

/-- What `validate_audit_event` raises. -/
inductive AuditInvalid where
  /-- `Missing required audit fields: [..]`. -/
  | missing (fields : List String)
  /-- `Invalid source '..', must be one of [..]`. -/
  | invalidSource (source : Option JsonValue)

/-- `validate_audit_event`. -/
def validateAuditEvent (event : Message) : Except AuditInvalid Unit :=
  let missing := auditRequiredFields.filter fun field => (event.lookup field).isNone
  if missing ≠ [] then .error (.missing missing)
  else
    match event.lookup "source" with
    | some (.str source) =>
      if source ∈ auditValidSources then .ok ()
      else .error (.invalidSource (some (.str source)))
    | source => .error (.invalidSource source)

/-- A document of `audit_logs`. -/
structure AuditDocument where
  auditId : String
  fields : Message
  queryTimestamp : String
  createdAt : String
  updatedAt : String

/-- `event[name]`. -/
def Message.getItem (event : Message) (name : String) : Option (String × JsonValue) :=
  (event.lookup name).map fun value => (name, value)

/-- `event.get(name, default)`. -/
def Message.getOrElse (event : Message) (name : String) (default : JsonValue) :
    String × JsonValue :=
  (name, (event.lookup name).getD default)

/-- `_parse_timestamp`; `parseText` is `datetime.fromisoformat` with `Z` as an offset. -/
def parseTimestamp (parseText : String → Option String) (now : String) :
    Option JsonValue → Option String
  | some (.str text) => parseText text
  | _ => some now

/-- The document of `upsert_audit_log`, or `none` when it raises: a `KeyError`, or a timestamp
    that does not parse. -/
def auditDocument (parseText : String → Option String) (now : String) (event : Message) :
    Option AuditDocument := do
  let queryTimestamp ← parseTimestamp parseText now (event.lookup "query_timestamp")
  let auditId ← (event.lookup "audit_id").bind JsonValue.toStr
  let workspaceId ← event.getItem "workspace_id"
  let userId ← event.getItem "user_id"
  let source ← event.getItem "source"
  let queryType ← event.getItem "query_type"
  let queryText ← event.getItem "query_text"
  let resultCount ← event.getItem "result_count"
  let responseTimeMs ← event.getItem "response_time_ms"
  return {
    auditId := auditId
    fields := [workspaceId, userId, event.getOrElse "api_key_id" .null, source, queryType,
      queryText, event.getOrElse "query_filters" (.obj []), resultCount,
      event.getOrElse "result_snippets" (.arr []),
      event.getOrElse "returned_chunk_ids" (.arr []),
      event.getOrElse "llm_response" .null, responseTimeMs,
      event.getOrElse "request_id" .null, event.getOrElse "principal_type" .null,
      event.getOrElse "principal_id" .null, event.getOrElse "surface" .null,
      event.getOrElse "tool_name" .null, event.getOrElse "workspace_ids" (.arr []),
      event.getOrElse "outcome" (.str "ok"),
      ("feedback", .obj [("rating", .null), ("note", .null), ("rated_at", .null),
        ("rated_by", .null)])]
    queryTimestamp := queryTimestamp
    createdAt := now
    updatedAt := now }

/-- An equality filter on a field: the value, or a member of an array. -/
def JsonValue.matchesText (text : String) : JsonValue → Bool
  | .str value => value = text
  | .arr values => values.any fun value => value.toStr = some text
  | _ => false

/-- `_workspace_filter`. -/
def AuditDocument.references (doc : AuditDocument) (workspaceId : String) : Bool :=
  (doc.fields.lookup "workspace_id").any (JsonValue.matchesText workspaceId) ||
    (doc.fields.lookup "workspace_ids").any (JsonValue.matchesText workspaceId)

/-- The activity that a workflow is at, with the attempts that are left. -/
inductive AuditStage where
  | validate
  | write (attempts : Nat)
  | metric (attempts : Nat) (written : Bool)
  deriving DecidableEq, Repr

/-- The `maximum_attempts` of `write_audit_log_to_mongo`. -/
def auditWriteAttempts : Nat := 5

/-- The `maximum_attempts` of `emit_audit_metric`. -/
def auditMetricAttempts : Nat := 2

/-- An open `WriteAuditLogWorkflow`. -/
structure AuditWorkflow where
  workflowId : String
  event : Message
  stage : AuditStage := .validate

/-! ## The system -/

/-- Why a workflow has failed. -/
inductive AuditFailure where
  | notValidated
  | writeExhausted
  deriving DecidableEq, Repr

/-- The entries of the stream, those of them that a handler has returned from, the open
    workflows, the failed ones and the collection. -/
structure AuditSystem where
  stream : List Message
  acked : List Nat
  running : UniqueTable AuditWorkflow.workflowId
  failed : List (AuditWorkflow × AuditFailure)
  logs : UniqueTable AuditDocument.auditId

/-- The system before the first event. -/
def AuditSystem.init : AuditSystem where
  stream := []
  acked := []
  running := .empty
  failed := []
  logs := .empty

/-- How an attempt of an activity ends. -/
inductive AttemptOutcome where
  | done
  /-- It raises or never runs. -/
  | refused
  /-- It has run, and its result is lost. -/
  | resultLost
  deriving DecidableEq, Repr

/-- What happens next. -/
inductive AuditAction where
  /-- `publish_audit_event`, when the stream takes the event. -/
  | publish (event : Message)
  /-- `handle` of a stream entry; `started` is `false` when `start_workflow` raises before the
      workflow is started, and `replied` when its reply is lost. -/
  | deliver (entry : Nat) (started replied : Bool)
  /-- An attempt of the activity that the workflow is at. -/
  | attempt (workflowId : String) (now : String) (outcome : AttemptOutcome)
  /-- `delete_workspace_audit_logs`. -/
  | purge (workspaceId : String)

/-- The workflow goes on to a stage. -/
def AuditSystem.toStage (s : AuditSystem) (workflowId : String) (stage : AuditStage) :
    AuditSystem :=
  { s with
    running := s.running.update
      (fun w => if w.workflowId = workflowId then { w with stage := stage } else w)
      fun w => by split <;> rfl }

/-- The workflow has completed. -/
def AuditSystem.close (s : AuditSystem) (workflowId : String) : AuditSystem :=
  { s with running := s.running.erase workflowId }

/-- The workflow has failed. -/
def AuditSystem.fail (s : AuditSystem) (w : AuditWorkflow) (failure : AuditFailure) :
    AuditSystem :=
  { s with running := s.running.erase w.workflowId, failed := s.failed ++ [(w, failure)] }

/-- An attempt of `write_audit_log_to_mongo` that did not count as a success. -/
def AuditSystem.retryWrite (s : AuditSystem) (w : AuditWorkflow) (attempts : Nat) : AuditSystem :=
  match attempts with
  | 0 => s.fail w .writeExhausted
  | attempts + 1 => s.toStage w.workflowId (.write (attempts + 1))

/-- One attempt of the activity that a workflow is at. -/
def AuditSystem.attempt (parseText : String → Option String) (s : AuditSystem)
    (w : AuditWorkflow) (now : String) (outcome : AttemptOutcome) : AuditSystem :=
  match w.stage with
  | .validate =>
    -- one attempt only
    match outcome, validateAuditEvent w.event with
    | .done, .ok _ => s.toStage w.workflowId (.write auditWriteAttempts)
    | _, _ => s.fail w .notValidated
  | .write attempts =>
    match auditDocument parseText now w.event with
    | none => s.retryWrite w (attempts - 1)
    | some doc =>
      -- `insert_one`; a `DuplicateKeyError` counts as a success
      match outcome with
      | .done =>
        { s with logs := s.logs.insertNew doc }.toStage w.workflowId
          (.metric auditMetricAttempts (!decide (s.logs.Holds doc.auditId)))
      | .refused => s.retryWrite w (attempts - 1)
      | .resultLost => { s with logs := s.logs.insertNew doc }.retryWrite w (attempts - 1)
  | .metric attempts written =>
    match outcome, attempts with
    | .done, _ => s.close w.workflowId
    | _, 0 => s.close w.workflowId
    | _, 1 => s.close w.workflowId
    | _, attempts + 2 => s.toStage w.workflowId (.metric (attempts + 1) written)

/-- One event; an attempt of a workflow that is not open does nothing. -/
def AuditSystem.step (parseText : String → Option String) (s : AuditSystem) :
    AuditAction → Option AuditSystem
  | .publish event => some { s with stream := s.stream ++ [event] }
  | .deliver entry started replied =>
    s.stream[entry]?.map fun message =>
      match auditWorkflowId message with
      | none => { s with acked := s.acked ++ [entry] }
      | some workflowId =>
        if started then
          -- `WorkflowAlreadyStartedError` leaves the open workflow as it is
          let s' := { s with
            running := s.running.insertNew { workflowId := workflowId, event := message } }
          if replied then { s' with acked := s.acked ++ [entry] } else s'
        else s
  | .attempt workflowId now outcome =>
    match s.running.find? workflowId with
    | none => some s
    | some w => some (s.attempt parseText w now outcome)
  | .purge workspaceId =>
    some { s with logs := s.logs.filter fun doc => !doc.references workspaceId }

end Inherent
