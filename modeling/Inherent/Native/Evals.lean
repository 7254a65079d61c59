import Inherent.ForStd.ProcessPool
import Inherent.ForStd.UniqueTable
import Inherent.Native.QualityGate
import Inherent.Native.RankingMetrics

/-!
# Evals

The evals of the public API: capture (`services/eval_capture.py`), feedback and promotion
(`services/eval_feedback.py`), the case endpoints (`api/v1/evals.py`) and the runs
(`services/eval_runner.py`), over the tables of migrations 015 and 018 as `services/database.py`
reads and writes them.  Each method of `DatabaseService` is one transaction, so requests
interleave between these calls; a request may stop or raise at any of them.

`queryKey` is `md5(lower(query_text))`, the expression of the unique index on `eval_cases`.
Times are those of `NOW()`.
-/

namespace Inherent

/-! ## Rows -/

/-- A row of `eval_query_events`. -/
structure EvalEvent where
  eventId : String
  workspaceId : String
  userId : Option String
  queryText : String
  searchMode : String
  resultDocIds : List String
  resultChunkIds : List String
  topScore : Option ℚ
  qualityVerdict : Option Verdict
  latencyMs : ℚ
  transport : String
  createdAt : Nat
  deriving DecidableEq

/-- `FeedbackVerdict`. -/
inductive FeedbackVerdict where
  | answered
  | partially
  | notRelevant
  deriving DecidableEq, Repr

/-- A row of `eval_feedback`. -/
structure EvalFeedback where
  eventId : String
  workspaceId : String
  verdict : FeedbackVerdict
  usefulChunkIds : List String
  queryText : String
  note : Option String
  deriving DecidableEq, Repr

/-- A row of `eval_cases`. -/
structure EvalCaseRow where
  caseId : String
  workspaceId : String
  queryText : String
  expectedDocIds : List String
  relevanceGrade : Nat
  active : Bool
  sourceEventId : String
  createdAt : Nat
  deriving DecidableEq, Repr

/-- The unique index on `eval_cases`: `(workspace_id, md5(lower(query_text)))`. -/
def EvalCaseRow.key (queryKey : String → String) (row : EvalCaseRow) : String × String :=
  (row.workspaceId, queryKey row.queryText)

/-- The means of one search mode. -/
structure ModeMetrics (K : Type) where
  recallAtK : ℚ
  mrr : ℚ
  ndcgAtK : K

/-- `status` of a run. -/
inductive RunStatus where
  | running
  | completed
  | failed
  deriving DecidableEq, Repr

/-- A row of `eval_runs`. -/
structure EvalRun (K : Type) where
  runId : String
  workspaceId : String
  status : RunStatus
  caseCount : Nat
  k : ℤ
  aggregates : List (String × ModeMetrics K)
  error : Option String

/-- The tables; `results` has the rows of `eval_run_results` with their `run_id`. -/
structure EvalTables (K : Type) (queryKey : String → String) where
  events : UniqueTable EvalEvent.eventId
  feedback : UniqueTable EvalFeedback.eventId
  cases : UniqueTable (EvalCaseRow.key queryKey)
  runs : UniqueTable (EvalRun.runId (K := K))
  results : List (String × EvalRow K)

/-- The tables as the migrations leave them. -/
def EvalTables.empty (K : Type) (queryKey : String → String) : EvalTables K queryKey where
  events := .empty
  feedback := .empty
  cases := .empty
  runs := .empty
  results := []

section

variable {K : Type} {queryKey : String → String}

/-! ## `DatabaseService` -/

/-- `insert_eval_event`. -/
def EvalTables.insertEvalEvent (db : EvalTables K queryKey) (event : EvalEvent) :
    EvalTables K queryKey :=
  { db with events := db.events.insertNew event }

/-- `purge_expired_eval_events`, for `NOW() - make_interval(days => ..)`. -/
def EvalTables.purgeExpiredEvalEvents (db : EvalTables K queryKey) (workspaceId : String)
    (cutoff : Nat) : EvalTables K queryKey :=
  { db with
    events := db.events.filter fun e => ¬ (e.workspaceId = workspaceId ∧ e.createdAt < cutoff) }

/-- `delete_eval_events`. -/
def EvalTables.deleteEvalEvents (db : EvalTables K queryKey) (workspaceId : String)
    (includeCases : Bool) : EvalTables K queryKey :=
  { db with
    events := db.events.filter fun e => e.workspaceId ≠ workspaceId
    cases := if includeCases then db.cases.filter fun c => c.workspaceId ≠ workspaceId
      else db.cases }

/-- `get_eval_event`. -/
def EvalTables.getEvalEvent (db : EvalTables K queryKey) (eventId : String)
    (workspaceIds : List String) : Option EvalEvent :=
  (db.events.find? eventId).filter fun e => e.workspaceId ∈ workspaceIds

/-- `upsert_eval_feedback`; the workspace and the query text of a row stay those of its
    first verdict. -/
def EvalTables.upsertEvalFeedback (db : EvalTables K queryKey) (row : EvalFeedback) :
    EvalTables K queryKey :=
  { db with
    feedback := db.feedback.upsert row
      (fun old => { old with
        verdict := row.verdict, usefulChunkIds := row.usefulChunkIds, note := row.note })
      fun _ => rfl }

/-- `jsonb_agg(DISTINCT x)`; nothing reads the order. -/
def jsonbAggDistinct (values : List String) : List String :=
  values.eraseDups.mergeSort fun a b => a ≤ b

/-- The `DO UPDATE` of `upsert_eval_case`. -/
def EvalCaseRow.merge (row old : EvalCaseRow) : EvalCaseRow :=
  { old with
    expectedDocIds := jsonbAggDistinct (old.expectedDocIds ++ row.expectedDocIds)
    relevanceGrade := max old.relevanceGrade row.relevanceGrade
    active := true }

/-- `upsert_eval_case`: the tables and the surviving `case_id`, or `none` when the new
    `case_id` is that of a row of another query and the primary key refuses it. -/
def EvalTables.upsertEvalCase (db : EvalTables K queryKey) (row : EvalCaseRow) :
    Option (EvalTables K queryKey × String) :=
  match db.cases.find? (row.key queryKey) with
  | some old =>
    some ({ db with cases := db.cases.upsert row row.merge fun _ => rfl }, old.caseId)
  | none =>
    if db.cases.rows.any (·.caseId = row.caseId) then none
    else some ({ db with cases := db.cases.upsert row row.merge fun _ => rfl }, row.caseId)

/-- `set_eval_case_active`. -/
def EvalTables.setEvalCaseActive (db : EvalTables K queryKey) (workspaceId caseId : String)
    (active : Bool) : EvalTables K queryKey :=
  { db with
    cases := db.cases.update
      (fun c => if c.workspaceId = workspaceId ∧ c.caseId = caseId then { c with active := active }
        else c)
      fun c => by split <;> rfl }

/-- `get_active_eval_cases`; an empty `case_ids` does not narrow. -/
def EvalTables.getActiveEvalCases (db : EvalTables K queryKey) (workspaceId : String)
    (caseIds : Option (List String)) (since : Option Nat) : List EvalCaseRow :=
  (db.cases.rows.filter fun c =>
    c.workspaceId = workspaceId ∧ c.active ∧
      (∀ ids, caseIds = some ids → ids ≠ [] → c.caseId ∈ ids) ∧
      ∀ instant, since = some instant → instant ≤ c.createdAt).mergeSort
        fun c d => c.createdAt ≤ d.createdAt

/-- `get_eval_case_ids`. -/
def EvalTables.getEvalCaseIds (db : EvalTables K queryKey) (workspaceId : String)
    (caseIds : List String) : List String :=
  (db.cases.rows.filter fun c => c.workspaceId = workspaceId ∧ c.caseId ∈ caseIds).map (·.caseId)

/-- `insert_eval_run`, or `none` when the `run_id` is taken. -/
def EvalTables.insertEvalRun (db : EvalTables K queryKey) (runId workspaceId : String)
    (caseCount : Nat) (k : ℤ) : Option (EvalTables K queryKey) :=
  if db.runs.Holds runId then none
  else some { db with
    runs := db.runs.insertNew
      { runId := runId, workspaceId := workspaceId, status := .running, caseCount := caseCount
        k := k, aggregates := [], error := none } }

/-- `finish_eval_run`. -/
def EvalTables.finishEvalRun (db : EvalTables K queryKey) (runId : String) (status : RunStatus)
    (aggregates : List (String × ModeMetrics K)) (error : Option String) :
    EvalTables K queryKey :=
  { db with
    runs := db.runs.update
      (fun run => if run.runId = runId then
          { run with status := status, aggregates := aggregates, error := error }
        else run)
      fun run => by split <;> rfl }

/-- `insert_eval_run_results`; the statement raises for want of parameters when there are no
    rows. -/
def EvalTables.insertEvalRunResults (db : EvalTables K queryKey) (runId : String)
    (rows : List (EvalRow K)) : Option (EvalTables K queryKey) :=
  if rows.isEmpty then none
  else some { db with results := db.results ++ rows.map fun row => (runId, row) }

/-- `get_eval_run_results`, up to its order. -/
def EvalTables.getEvalRunResults (db : EvalTables K queryKey) (runId : String) :
    List (EvalRow K) :=
  (db.results.filter fun row => row.1 = runId).map Prod.snd

/-- `get_run_report`: the run, if it is one of the workspace, with its rows. -/
def EvalTables.getRunReport (db : EvalTables K queryKey) (workspaceId runId : String) :
    Option (EvalRun K × List (EvalRow K)) :=
  ((db.runs.find? runId).filter fun run => run.workspaceId = workspaceId).map fun run =>
    (run, db.getEvalRunResults runId)

end

/-! ## Capture -/

/-- A result of a search, as far as capture reads it. -/
structure CapturedResult where
  documentId : String
  chunkId : String
  score : ℚ
  deriving DecidableEq

/-- A search of one workspace that has been answered: its response as far as capture reads
    it, with the id that `new_event_id` has minted. -/
structure CapturedSearch where
  eventId : String
  transport : String
  workspaceId : String
  userId : Option String
  query : String
  searchMode : String
  results : List CapturedResult
  qualityVerdict : Option QualityVerdict
  processingTimeMs : ℚ
  now : Nat
  deriving DecidableEq

/-- The row that `record_query_event` inserts. -/
def CapturedSearch.event (search : CapturedSearch) : EvalEvent where
  eventId := search.eventId
  workspaceId := search.workspaceId
  userId := search.userId
  queryText := search.query
  searchMode := search.searchMode
  resultDocIds := search.results.map (·.documentId)
  resultChunkIds := search.results.map (·.chunkId)
  topScore := search.results.head?.map (·.score)
  qualityVerdict := search.qualityVerdict.map (·.verdict)
  latencyMs := search.processingTimeMs
  transport := search.transport
  createdAt := search.now

/-- The settings of capture: the flag, and `eval_capture_optout_set()`. -/
structure CaptureSettings where
  evalCaptureEnabled : Bool
  evalCaptureOptout : List String

/-- `capture_enabled`. -/
def captureEnabled (settings : CaptureSettings) (workspaceId : String) : Bool :=
  settings.evalCaptureEnabled && !decide (workspaceId ∈ settings.evalCaptureOptout)

/-! ## Feedback -/

/-- `FeedbackRequest`. -/
structure FeedbackRequest where
  eventId : String
  verdict : FeedbackVerdict
  usefulChunkIds : Option (List String)
  note : Option String
  deriving DecidableEq, Repr

/-- `_GRADE_BY_VERDICT.get`. -/
def gradeByVerdict : FeedbackVerdict → Option Nat
  | .answered => some 2
  | .partially => some 1
  | .notRelevant => none

/-- `should_promote`. -/
def FeedbackRequest.shouldPromote (req : FeedbackRequest) : Bool :=
  gradeByVerdict req.verdict == some 2 ||
    (gradeByVerdict req.verdict == some 1 && !(req.usefulChunkIds.getD []).isEmpty)

/-- `expected` of `submit_feedback`. -/
def expectedDocs (event : EvalEvent) (req : FeedbackRequest) : List String :=
  let useful := req.usefulChunkIds.getD []
  if useful.isEmpty then event.resultDocIds.eraseDups
  else
    (((event.resultDocIds.zip event.resultChunkIds).filter fun pair => pair.2 ∈ useful).map
      Prod.fst).eraseDups

/-- The verdict that `submit_feedback` records. -/
def FeedbackRequest.row (req : FeedbackRequest) (event : EvalEvent) : EvalFeedback where
  eventId := req.eventId
  workspaceId := event.workspaceId
  verdict := req.verdict
  usefulChunkIds := req.usefulChunkIds.getD []
  queryText := event.queryText
  note := req.note

/-- The case that `submit_feedback` promotes. -/
def FeedbackRequest.caseRow (req : FeedbackRequest) (event : EvalEvent) (caseId : String)
    (grade now : Nat) : EvalCaseRow where
  caseId := caseId
  workspaceId := event.workspaceId
  queryText := event.queryText
  expectedDocIds := expectedDocs event req
  relevanceGrade := grade
  active := true
  sourceEventId := req.eventId
  createdAt := now

/-! ## Runs -/

/-- `MODES`. -/
def evalModes : List String := ["keyword", "semantic", "hybrid"]

/-- `POST /v1/evals/runs`: the id `start_run` mints, the scope of the replay, `eval_run_k`, the
    documents that a search for a query in a mode ranks (`none` when it raises), and the text
    of the exception that reaches `execute_run`, if one does. -/
structure RunRequest where
  runId : String
  workspaceId : String
  caseIds : Option (List String)
  since : Option Nat
  k : ℤ
  search : String → String → Option (List String)
  error : String

section

variable {K : Type} [Field K] [LinearOrder K] [IsStrictOrderedRing K]

/-- A case as `_score_case_mode` reads it, with `float(case["relevance_grade"])`. -/
def EvalCaseRow.toEvalCase (row : EvalCaseRow) : EvalCase K where
  caseId := row.caseId
  queryText := row.queryText
  expectedDocIds := row.expectedDocIds
  relevanceGrade := row.relevanceGrade

/-- `_score_case_mode`; `none` when the search raises. -/
def RunRequest.scoreRow (run : RunRequest) (fns : GainFunctions K) (row : EvalCaseRow)
    (mode : String) : Option (EvalRow K) :=
  (run.search mode row.queryText).map (scoreCaseMode fns row.toEvalCase mode run.k)

/-- The `asyncio.gather` of `execute_run`: every case in every mode, or `none` when one of the
    searches raises. -/
def RunRequest.replay (run : RunRequest) (fns : GainFunctions K) (cases : List EvalCaseRow) :
    Option (List (EvalRow K)) :=
  (cases.flatMap fun row => evalModes.map fun mode => (row, mode)).mapM fun pair =>
    run.scoreRow fns pair.1 pair.2

/-- `aggregates` of `execute_run`. -/
def evalAggregates (rows : List (EvalRow K)) : List (String × ModeMetrics K) :=
  evalModes.map fun mode =>
    let modeRows := rows.filter fun row => row.mode = mode
    let n := if modeRows.length = 0 then 1 else modeRows.length
    (mode,
      { recallAtK := (modeRows.map (·.recallAtK)).sum / n
        mrr := (modeRows.map (·.mrr)).sum / n
        ndcgAtK := (modeRows.map (·.ndcgAtK)).sum / n })

end

/-! ## Requests -/

/-- A request that reads or writes the tables. -/
inductive EvalRequest where
  /-- A search, when it has its results. -/
  | search (search : CapturedSearch)
  /-- Feedback from a caller of these workspaces, with a fresh case id. -/
  | feedback (workspaceIds : List String) (req : FeedbackRequest) (caseId : String) (now : Nat)
  /-- `purge_expired_events`. -/
  | purgeExpired (workspaceId : String) (cutoff : Nat)
  /-- `DELETE /v1/evals/events`. -/
  | deleteEvents (workspaceId : String) (includeCases : Bool)
  /-- `PATCH /v1/evals/cases/{case_id}`. -/
  | patchCase (workspaceId caseId : String) (active : Bool)
  /-- `POST /v1/evals/runs`, with the run in the background. -/
  | evalRun (run : RunRequest)

/-- How far a request is: the call of the database it makes next, or how it has ended. -/
inductive EvalCall (K : Type) where
  | capture (event : EvalEvent)
  /-- The search is answered; `advertised` says whether the response has the event's id. -/
  | searched (event : EvalEvent) (advertised : Bool)
  | fetchEvent (workspaceIds : List String) (req : FeedbackRequest) (caseId : String) (now : Nat)
  | recordVerdict (event : EvalEvent) (req : FeedbackRequest) (caseId : String) (now : Nat)
  | promote (event : EvalEvent) (req : FeedbackRequest) (caseId : String) (grade now : Nat)
  /-- The `FeedbackResponse`: the case id when the feedback was promoted. -/
  | feedbackGiven (event : EvalEvent) (req : FeedbackRequest) (promotedTo : Option String)
  | eventNotFound (eventId : String)
  | purge (workspaceId : String) (cutoff : Nat)
  | delete (workspaceId : String) (includeCases : Bool)
  | patch (workspaceId caseId : String) (active : Bool)
  /-- The `case_ids` of the request are looked up. -/
  | checkScope (run : RunRequest) (caseIds : List String)
  /-- `start_run` counts the cases. -/
  | countCases (run : RunRequest)
  | insertRun (run : RunRequest) (caseCount : Nat)
  /-- `execute_run` fetches the cases. -/
  | fetchCases (run : RunRequest)
  | storeRows (run : RunRequest) (cases : List EvalCaseRow) (rows : List (EvalRow K))
  | completeRun (run : RunRequest) (cases : List EvalCaseRow) (rows : List (EvalRow K))
  | failRun (run : RunRequest)
  /-- The run is over; its last write may have been lost. -/
  | runOver (run : RunRequest)
  /-- A `404` or a `409`. -/
  | rejected
  | finished
  | raised

section

variable {K : Type} [Field K] [LinearOrder K] [IsStrictOrderedRing K] {queryKey : String → String}

/-- The rest of `submit_feedback` behind the verdict. -/
def afterVerdict (event : EvalEvent) (req : FeedbackRequest) (caseId : String) (now : Nat) :
    EvalCall K :=
  match gradeByVerdict req.verdict with
  | none => .feedbackGiven event req none
  | some grade =>
    if !req.shouldPromote then .feedbackGiven event req none
    else if (expectedDocs event req).isEmpty then .feedbackGiven event req none
    else .promote event req caseId grade now

/-- How a request starts; a search that is not captured does nothing here. -/
def startEvalRequest (settings : CaptureSettings) : EvalRequest → Option (EvalCall K)
  | .search search =>
    if captureEnabled settings search.workspaceId then some (.capture search.event) else none
  | .feedback workspaceIds req caseId now => some (.fetchEvent workspaceIds req caseId now)
  | .purgeExpired workspaceId cutoff => some (.purge workspaceId cutoff)
  | .deleteEvents workspaceId includeCases => some (.delete workspaceId includeCases)
  | .patchCase workspaceId caseId active => some (.patch workspaceId caseId active)
  | .evalRun run =>
    match run.caseIds with
    | some (caseId :: caseIds) => some (.checkScope run (caseId :: caseIds))
    | _ => some (.countCases run)

/-- The next call of the database, and what the request does with its result. -/
def EvalCall.advance (fns : GainFunctions K) (db : EvalTables K queryKey) :
    EvalCall K → Option (EvalTables K queryKey × EvalCall K)
  | .capture event => some (db.insertEvalEvent event, .searched event true)
  | .fetchEvent workspaceIds req caseId now =>
    match db.getEvalEvent req.eventId workspaceIds with
    | none => some (db, .eventNotFound req.eventId)
    | some event => some (db, .recordVerdict event req caseId now)
  | .recordVerdict event req caseId now =>
    some (db.upsertEvalFeedback (req.row event), afterVerdict event req caseId now)
  | .promote event req caseId grade now =>
    match db.upsertEvalCase (req.caseRow event caseId grade now) with
    | none => some (db, .raised)
    | some (db', surviving) => some (db', .feedbackGiven event req (some surviving))
  | .purge workspaceId cutoff => some (db.purgeExpiredEvalEvents workspaceId cutoff, .finished)
  | .delete workspaceId includeCases =>
    some (db.deleteEvalEvents workspaceId includeCases, .finished)
  | .patch workspaceId caseId active =>
    some (db.setEvalCaseActive workspaceId caseId active, .finished)
  | .checkScope run caseIds =>
    if ∀ caseId ∈ caseIds, caseId ∈ db.getEvalCaseIds run.workspaceId caseIds then
      some (db, .countCases run)
    else some (db, .rejected)
  | .countCases run =>
    let cases := db.getActiveEvalCases run.workspaceId run.caseIds run.since
    if cases.isEmpty then some (db, .rejected) else some (db, .insertRun run cases.length)
  | .insertRun run caseCount =>
    match db.insertEvalRun run.runId run.workspaceId caseCount run.k with
    | none => some (db, .raised)
    | some db' => some (db', .fetchCases run)
  | .fetchCases run =>
    let cases := db.getActiveEvalCases run.workspaceId run.caseIds run.since
    match run.replay fns cases with
    | none => some (db, .failRun run)
    | some rows => some (db, .storeRows run cases rows)
  | .storeRows run cases rows =>
    match db.insertEvalRunResults run.runId rows with
    | none => some (db, .failRun run)
    | some db' => some (db', .completeRun run cases rows)
  | .completeRun run _ rows =>
    some (db.finishEvalRun run.runId .completed (evalAggregates rows) none, .runOver run)
  | .failRun run => some (db.finishEvalRun run.runId .failed [] (some run.error), .runOver run)
  | .searched .. | .feedbackGiven .. | .eventNotFound _ | .runOver _ | .rejected | .finished
  | .raised => none

/-- The call raises, or its reply is lost.  Capture and purge swallow it, a run is marked as
    failed, and a run that cannot be marked stays as it is. -/
def EvalCall.interrupt : EvalCall K → EvalCall K
  | .capture event => .searched event false
  | .purge .. => .finished
  | .fetchCases run | .storeRows run _ _ | .completeRun run _ _ => .failRun run
  | .failRun run => .runOver run
  | .searched event advertised => .searched event advertised
  | .feedbackGiven event req promotedTo => .feedbackGiven event req promotedTo
  | .eventNotFound eventId => .eventNotFound eventId
  | .runOver run => .runOver run
  | .rejected => .rejected
  | .finished => .finished
  | _ => .raised

/-- The evals as a program of a process pool over the tables. -/
def evals (settings : CaptureSettings) (fns : GainFunctions K) :
    ProcessPool.Program (EvalTables K queryKey) (EvalCall K) EvalRequest where
  start := startEvalRequest settings
  advance db _ call := call.advance fns db
  interrupt := EvalCall.interrupt

end

end Inherent
