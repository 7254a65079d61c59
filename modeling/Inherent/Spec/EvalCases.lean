import Inherent.Native.Evals
import Inherent.Spec.RankingMetrics

/-!
# Where the eval cases come from

What any number of searches, verdicts, purges, case updates and runs leave in `eval_cases`,
whatever the order of their database calls: each case is earned by feedback on searches of its
own workspace, and no promoted evidence is lost.
-/

namespace Inherent

open ProcessPool (Holds RelyGuarantee StartsMeet Event)

/-! ## The operations -/

section

variable {K : Type} {queryKey : String → String} {db db' : EvalTables K queryKey}

theorem getEvalEvent_eq_some {eventId : String} {workspaceIds : List String} {event : EvalEvent} :
    db.getEvalEvent eventId workspaceIds = some event ↔
      event ∈ db.events.rows ∧ event.eventId = eventId ∧ event.workspaceId ∈ workspaceIds := by
  rw [EvalTables.getEvalEvent, Option.filter_eq_some_iff, UniqueTable.find?_eq_some,
    decide_eq_true_eq, and_assoc]

/-- A captured search: what feedback with or without chunk ids takes as evidence. -/
theorem mem_expectedDocs {search : CapturedSearch} {req : FeedbackRequest} {doc : String} :
    doc ∈ expectedDocs search.event req ↔
      ∃ result ∈ search.results, result.documentId = doc ∧
        (req.usefulChunkIds.getD [] = [] ∨ result.chunkId ∈ req.usefulChunkIds.getD []) := by
  have hzip : search.event.resultDocIds.zip search.event.resultChunkIds =
      search.results.map fun result => (result.documentId, result.chunkId) :=
    List.zip_map'
  cases huseful : req.usefulChunkIds.getD [] with
  | nil =>
    simp [expectedDocs, huseful, CapturedSearch.event]
  | cons chunk chunks =>
    simp only [expectedDocs, huseful, hzip, List.isEmpty_cons, Bool.false_eq_true, if_false,
      List.mem_eraseDups, List.mem_map, List.mem_filter, decide_eq_true_eq, reduceCtorEq, false_or]
    constructor
    · rintro ⟨-, ⟨⟨result, hresult, rfl⟩, hchunk⟩, rfl⟩
      exact ⟨result, hresult, rfl, hchunk⟩
    · rintro ⟨result, hresult, rfl, hchunk⟩
      exact ⟨_, ⟨⟨result, hresult, rfl⟩, hchunk⟩, rfl⟩

theorem nodup_expectedDocs (event : EvalEvent) (req : FeedbackRequest) :
    (expectedDocs event req).Nodup := by
  rw [expectedDocs]
  split <;> exact FirstOccurrence.nodup_eraseDups _

@[simp] theorem mem_jsonbAggDistinct {values : List String} {value : String} :
    value ∈ jsonbAggDistinct values ↔ value ∈ values := by
  rw [jsonbAggDistinct, List.mem_mergeSort, List.mem_eraseDups]

theorem nodup_jsonbAggDistinct (values : List String) : (jsonbAggDistinct values).Nodup :=
  (List.mergeSort_perm _ _).nodup_iff.mpr (FirstOccurrence.nodup_eraseDups values)

/-- Everything an upsert of a case can do: the merged row, or the new one. -/
theorem upsertEvalCase_eq_some {row : EvalCaseRow} {surviving : String}
    (h : db.upsertEvalCase row = some (db', surviving)) :
    db' = { db with cases := db.cases.upsert row row.merge fun _ => rfl } ∧
      surviving = ((db.cases.find? (row.key queryKey)).elim row row.merge).caseId := by
  cases hold : db.cases.find? (row.key queryKey) with
  | some old =>
    simp only [EvalTables.upsertEvalCase, hold, Option.some.injEq, Prod.mk.injEq] at h
    exact ⟨h.1.symm, h.2.symm⟩
  | none =>
    by_cases hid : db.cases.rows.any (·.caseId = row.caseId)
    · simp only [EvalTables.upsertEvalCase, hold, if_pos hid, reduceCtorEq] at h
    · simp only [EvalTables.upsertEvalCase, hold, if_neg hid, Option.some.injEq,
        Prod.mk.injEq] at h
      exact ⟨h.1.symm, h.2.symm⟩

end

/-! ## Earned cases -/

section

variable {K : Type} {queryKey : String → String} {E : EvalRequest → Prop}

/-- The event is that of a search, and the verdict one of a caller of its workspace. -/
structure Authentic (E : EvalRequest → Prop) (event : EvalEvent) (req : FeedbackRequest) :
    Prop where
  captured : ∃ search : CapturedSearch, E (.search search) ∧ search.event = event
  allowed : ∃ workspaceIds caseId now,
    E (.feedback workspaceIds req caseId now) ∧ event.workspaceId ∈ workspaceIds
  about : req.eventId = event.eventId

/-- The feedback promotes its event to the case of a workspace and a query. -/
structure Promotes (E : EvalRequest → Prop) (queryKey : String → String)
    (workspaceId queryText : String) (event : EvalEvent) (req : FeedbackRequest) : Prop
    extends Authentic E event req where
  workspace : event.workspaceId = workspaceId
  query : queryKey event.queryText = queryKey queryText
  promotes : req.shouldPromote = true

/-- A case that rests on feedback alone. -/
structure Earned (E : EvalRequest → Prop) (queryKey : String → String) (row : EvalCaseRow) :
    Prop where
  nonempty : row.expectedDocIds ≠ []
  nodup : row.expectedDocIds.Nodup
  docs : ∀ doc ∈ row.expectedDocIds, ∃ event req,
    Promotes E queryKey row.workspaceId row.queryText event req ∧ doc ∈ expectedDocs event req
  grade : ∃ event req, Promotes E queryKey row.workspaceId row.queryText event req ∧
    gradeByVerdict req.verdict = some row.relevanceGrade

/-- The store: every event is that of a search, every case is earned. -/
structure EarnedTables (E : EvalRequest → Prop) (db : EvalTables K queryKey) : Prop where
  events : ∀ event ∈ db.events.rows, ∃ search : CapturedSearch,
    E (.search search) ∧ search.event = event
  cases : ∀ row ∈ db.cases.rows, Earned E queryKey row

/-- A request works on what it has read. -/
def EvalCall.Sound (E : EvalRequest → Prop) : EvalCall K → Prop
  | .capture event => ∃ search : CapturedSearch, E (.search search) ∧ search.event = event
  | .fetchEvent workspaceIds req caseId now => E (.feedback workspaceIds req caseId now)
  | .recordVerdict event req _ _ => Authentic E event req
  | .promote event req _ grade _ =>
    Authentic E event req ∧ req.shouldPromote = true ∧
      gradeByVerdict req.verdict = some grade ∧ expectedDocs event req ≠ []
  | _ => True

theorem sound_afterVerdict {event : EvalEvent} {req : FeedbackRequest} {caseId : String}
    {now : Nat} (h : Authentic E event req) :
    (afterVerdict event req caseId now : EvalCall K).Sound E := by
  unfold afterVerdict
  cases hgrade : gradeByVerdict req.verdict with
  | none => trivial
  | some grade =>
    by_cases hpromote : req.shouldPromote = true
    · by_cases hempty : (expectedDocs event req).isEmpty
      · simp [hpromote, hempty, EvalCall.Sound]
      · simp only [hpromote, hempty]
        exact ⟨h, hpromote, hgrade, by simpa using hempty⟩
    · simp [hpromote, EvalCall.Sound]

/-- The call of a run, or what a run ends in. -/
def EvalCall.OfRun : EvalCall K → Prop
  | .checkScope .. | .countCases _ | .insertRun .. | .fetchCases _ | .storeRows .. | .completeRun ..
  | .failRun _ | .runOver _ | .rejected | .raised => True
  | _ => False

theorem EvalCall.OfRun.sound {call : EvalCall K} (h : call.OfRun) : call.Sound E := by
  cases call with
  | capture event => exact h.elim
  | fetchEvent workspaceIds req caseId now => exact h.elim
  | recordVerdict event req caseId now => exact h.elim
  | promote event req caseId grade now => exact h.elim
  | _ => trivial

/-- What is raised or lost is no evidence. -/
theorem sound_interrupt {call : EvalCall K} (h : call.Sound E) : call.interrupt.Sound E := by
  cases call with
  | capture event => trivial
  | fetchEvent workspaceIds req caseId now => trivial
  | recordVerdict event req caseId now => trivial
  | promote event req caseId grade now => trivial
  | _ => exact h

/-- The merge of a promoted case into the one of its query. -/
theorem Earned.merge {old row : EvalCaseRow} (hold : Earned E queryKey old)
    (hrow : Earned E queryKey row) (hkey : old.key queryKey = row.key queryKey) :
    Earned E queryKey (row.merge old) := by
  obtain ⟨hworkspace, hquery⟩ := Prod.mk.inj hkey
  -- what promotes the new row promotes the old one, whose workspace and query stay
  have hmove : ∀ {event req}, Promotes E queryKey row.workspaceId row.queryText event req →
      Promotes E queryKey old.workspaceId old.queryText event req := fun h =>
    { h with workspace := h.workspace.trans hworkspace.symm, query := h.query.trans hquery.symm }
  refine ⟨?_, nodup_jsonbAggDistinct _, ?_, ?_⟩
  · obtain ⟨doc, hdoc⟩ := List.exists_mem_of_ne_nil _ hold.nonempty
    refine List.ne_nil_of_mem (a := doc) ?_
    exact mem_jsonbAggDistinct.mpr (List.mem_append_left _ hdoc)
  · intro doc hdoc
    obtain hdoc | hdoc := List.mem_append.mp (mem_jsonbAggDistinct.mp hdoc)
    · exact hold.docs doc hdoc
    · obtain ⟨event, req, h, hmem⟩ := hrow.docs doc hdoc
      exact ⟨event, req, hmove h, hmem⟩
  · obtain hle | hle := le_total old.relevanceGrade row.relevanceGrade
    · obtain ⟨event, req, h, hgrade⟩ := hrow.grade
      exact ⟨event, req, hmove h, by rw [hgrade]; exact congrArg some (max_eq_right hle).symm⟩
    · obtain ⟨event, req, h, hgrade⟩ := hold.grade
      exact ⟨event, req, h, by rw [hgrade]; exact congrArg some (max_eq_left hle).symm⟩

/-- An upsert keeps the cases earned. -/
theorem earned_upsert {cases : UniqueTable (EvalCaseRow.key queryKey)} {row : EvalCaseRow}
    (hcases : ∀ c ∈ cases.rows, Earned E queryKey c) (hrow : Earned E queryKey row) :
    ∀ c ∈ (cases.upsert row row.merge fun _ => rfl).rows, Earned E queryKey c := by
  intro c hc
  obtain ⟨hmem, -⟩ | ⟨old, hold, hkey, rfl⟩ | ⟨rfl, -⟩ := UniqueTable.mem_upsert hc
  · exact hcases c hmem
  · exact (hcases old hold).merge hrow hkey
  · exact hrow

end

section

variable {K : Type} [Field K] [LinearOrder K] [IsStrictOrderedRing K] {queryKey : String → String}
  {settings : CaptureSettings} {fns : GainFunctions K} {E : EvalRequest → Prop}

theorem Earned.setActive {row : EvalCaseRow} (h : Earned E queryKey row) (active : Bool) :
    Earned E queryKey { row with active := active } :=
  ⟨h.nonempty, h.nodup, h.docs, h.grade⟩

/-- A run leaves the events and the cases as they are. -/
theorem advance_of_run {db db' : EvalTables K queryKey} {call call' : EvalCall K}
    (hcall : call.OfRun) (h : call.advance fns db = some (db', call')) :
    db'.events = db.events ∧ db'.cases = db.cases ∧ call'.OfRun := by
  cases call with
  | checkScope run caseIds =>
    simp only [EvalCall.advance] at h
    split at h <;> obtain ⟨rfl, rfl⟩ := by simpa using h
    · exact ⟨rfl, rfl, trivial⟩
    · exact ⟨rfl, rfl, trivial⟩
  | countCases run =>
    simp only [EvalCall.advance] at h
    split at h <;> obtain ⟨rfl, rfl⟩ := by simpa using h
    · exact ⟨rfl, rfl, trivial⟩
    · exact ⟨rfl, rfl, trivial⟩
  | insertRun run caseCount =>
    by_cases hid : db.runs.Holds run.runId
    · simp only [EvalCall.advance, EvalTables.insertEvalRun, if_pos hid, Option.some.injEq,
        Prod.mk.injEq] at h
      obtain ⟨rfl, rfl⟩ := h
      exact ⟨rfl, rfl, trivial⟩
    · simp only [EvalCall.advance, EvalTables.insertEvalRun, if_neg hid, Option.some.injEq,
        Prod.mk.injEq] at h
      obtain ⟨rfl, rfl⟩ := h
      exact ⟨rfl, rfl, trivial⟩
  | fetchCases run =>
    simp only [EvalCall.advance] at h
    split at h <;> obtain ⟨rfl, rfl⟩ := by simpa using h
    · exact ⟨rfl, rfl, trivial⟩
    · exact ⟨rfl, rfl, trivial⟩
  | storeRows run cases rows =>
    by_cases hrows : rows.isEmpty
    · simp only [EvalCall.advance, EvalTables.insertEvalRunResults, if_pos hrows,
        Option.some.injEq, Prod.mk.injEq] at h
      obtain ⟨rfl, rfl⟩ := h
      exact ⟨rfl, rfl, trivial⟩
    · simp only [EvalCall.advance, EvalTables.insertEvalRunResults, if_neg hrows,
        Option.some.injEq, Prod.mk.injEq] at h
      obtain ⟨rfl, rfl⟩ := h
      exact ⟨rfl, rfl, trivial⟩
  | completeRun run cases rows =>
    simp only [EvalCall.advance, Option.some.injEq, Prod.mk.injEq] at h
    obtain ⟨rfl, rfl⟩ := h
    exact ⟨rfl, rfl, trivial⟩
  | failRun run =>
    simp only [EvalCall.advance, Option.some.injEq, Prod.mk.injEq] at h
    obtain ⟨rfl, rfl⟩ := h
    exact ⟨rfl, rfl, trivial⟩
  | runOver run => cases h
  | rejected => cases h
  | raised => cases h
  | _ => exact hcall.elim

/-- A call of the database keeps the tables earned, and its request sound. -/
theorem earned_advance {db db' : EvalTables K queryKey} {call call' : EvalCall K}
    (hdb : EarnedTables E db) (hcall : call.Sound E) (h : call.advance fns db = some (db', call')) :
    EarnedTables E db' ∧ call'.Sound E := by
  by_cases hrun : call.OfRun
  · obtain ⟨hevents, hcases, hrun'⟩ := advance_of_run hrun h
    exact ⟨⟨hevents ▸ hdb.events, hcases ▸ hdb.cases⟩, hrun'.sound⟩
  cases call with
  | capture event =>
    simp only [EvalCall.advance, Option.some.injEq, Prod.mk.injEq] at h
    obtain ⟨rfl, rfl⟩ := h
    refine ⟨⟨fun e he => ?_, hdb.cases⟩, trivial⟩
    obtain he | rfl := UniqueTable.mem_of_mem_insertNew he
    · exact hdb.events e he
    · exact hcall
  | fetchEvent workspaceIds req caseId now =>
    cases hevent : db.getEvalEvent req.eventId workspaceIds with
    | none =>
      simp only [EvalCall.advance, hevent, Option.some.injEq, Prod.mk.injEq] at h
      obtain ⟨rfl, rfl⟩ := h
      exact ⟨hdb, trivial⟩
    | some event =>
      simp only [EvalCall.advance, hevent, Option.some.injEq, Prod.mk.injEq] at h
      obtain ⟨rfl, rfl⟩ := h
      obtain ⟨hmem, hid, hworkspace⟩ := getEvalEvent_eq_some.mp hevent
      exact ⟨hdb, hdb.events event hmem, ⟨workspaceIds, caseId, now, hcall, hworkspace⟩, hid.symm⟩
  | recordVerdict event req caseId now =>
    simp only [EvalCall.advance, Option.some.injEq, Prod.mk.injEq] at h
    obtain ⟨rfl, rfl⟩ := h
    exact ⟨⟨hdb.events, hdb.cases⟩, sound_afterVerdict hcall⟩
  | promote event req caseId grade now =>
    obtain ⟨hauth, hpromote, hgrade, hne⟩ := hcall
    cases hupsert : db.upsertEvalCase (req.caseRow event caseId grade now) with
    | none =>
      simp only [EvalCall.advance, hupsert, Option.some.injEq, Prod.mk.injEq] at h
      obtain ⟨rfl, rfl⟩ := h
      exact ⟨hdb, trivial⟩
    | some result =>
      obtain ⟨db₁, surviving⟩ := result
      simp only [EvalCall.advance, hupsert, Option.some.injEq, Prod.mk.injEq] at h
      obtain ⟨rfl, rfl⟩ := h
      obtain ⟨rfl, -⟩ := upsertEvalCase_eq_some hupsert
      have hpromotes : Promotes E queryKey event.workspaceId event.queryText event req :=
        { hauth with workspace := rfl, query := rfl, promotes := hpromote }
      have hrow : Earned E queryKey (req.caseRow event caseId grade now) :=
        ⟨hne, nodup_expectedDocs event req, fun doc hdoc => ⟨event, req, hpromotes, hdoc⟩,
          event, req, hpromotes, hgrade⟩
      exact ⟨⟨hdb.events, earned_upsert hdb.cases hrow⟩, trivial⟩
  | purge workspaceId cutoff =>
    simp only [EvalCall.advance, Option.some.injEq, Prod.mk.injEq] at h
    obtain ⟨rfl, rfl⟩ := h
    exact ⟨⟨fun e he => hdb.events e (UniqueTable.mem_filter.mp he).1, hdb.cases⟩, trivial⟩
  | delete workspaceId includeCases =>
    simp only [EvalCall.advance, Option.some.injEq, Prod.mk.injEq] at h
    obtain ⟨rfl, rfl⟩ := h
    refine ⟨⟨fun e he => hdb.events e (UniqueTable.mem_filter.mp he).1, fun c hc => ?_⟩, trivial⟩
    cases includeCases with
    | true => exact hdb.cases c (UniqueTable.mem_filter.mp hc).1
    | false => exact hdb.cases c hc
  | patch workspaceId caseId active =>
    simp only [EvalCall.advance, Option.some.injEq, Prod.mk.injEq] at h
    obtain ⟨rfl, rfl⟩ := h
    refine ⟨⟨hdb.events, fun c hc => ?_⟩, trivial⟩
    obtain ⟨old, hold, rfl⟩ := List.mem_map.mp hc
    split
    · exact (hdb.cases old hold).setActive active
    · exact hdb.cases old hold
  | searched event advertised => cases h
  | feedbackGiven event req promotedTo => cases h
  | eventNotFound eventId => cases h
  | finished => cases h
  | _ => exact absurd trivial hrun

/-- The cases of a run are earned by its requests. -/
theorem earned_guaranteed :
    RelyGuarantee (@evals K _ _ _ queryKey settings fns) E (EarnedTables E)
      (fun _ call => call.Sound E) (fun _ _ => True) where
  symm _ _ _ := trivial
  start db request call _ hrequest hstart := by
    refine ⟨?_, fun _ _ => trivial⟩
    have hstart : startEvalRequest settings request = some call := hstart
    cases request with
    | search search =>
      simp only [startEvalRequest, Option.ite_none_right_eq_some, Option.some.injEq] at hstart
      obtain ⟨-, rfl⟩ := hstart
      exact ⟨search, hrequest, rfl⟩
    | feedback workspaceIds req caseId now =>
      simp only [startEvalRequest, Option.some.injEq] at hstart
      subst hstart
      exact hrequest
    | purgeExpired workspaceId cutoff => cases hstart; trivial
    | deleteEvents workspaceId includeCases => cases hstart; trivial
    | patchCase workspaceId caseId active => cases hstart; trivial
    | evalRun run =>
      simp only [startEvalRequest] at hstart
      split at hstart <;> cases hstart <;> trivial
  advance db _ call db' call' hdb hcall hpeers _ hadv := by
    obtain ⟨hdb', hcall'⟩ := earned_advance hdb hcall hadv
    exact ⟨hdb', hcall', hpeers, fun _ _ => trivial⟩
  interrupt db call _ hcall := ⟨sound_interrupt hcall, fun _ _ => trivial⟩
  lose db _ call db' call' _ hcall _ := sound_interrupt hcall

/-- A case rests on the requests of a run: each document it expects was a result of a search of
    the same workspace for the same query, a caller who may act on the workspace judged that
    search and did not call it irrelevant, and named one of the document's chunks if any chunk
    was named.  The grade is that of one of these verdicts. -/
structure RestsOnFeedback (es : List (Event EvalRequest)) (queryKey : String → String)
    (row : EvalCaseRow) : Prop where
  nonempty : row.expectedDocIds ≠ []
  nodup : row.expectedDocIds.Nodup
  grade : ∃ event req, Promotes (fun a => Event.start a ∈ es) queryKey row.workspaceId row.queryText
    event req ∧ gradeByVerdict req.verdict = some row.relevanceGrade
  docs : ∀ doc ∈ row.expectedDocIds, ∃ search workspaceIds req caseId now,
    Event.start (.search search) ∈ es ∧
    Event.start (.feedback workspaceIds req caseId now) ∈ es ∧
    search.workspaceId = row.workspaceId ∧ search.workspaceId ∈ workspaceIds ∧
    queryKey search.query = queryKey row.queryText ∧
    req.eventId = search.eventId ∧ req.verdict ≠ .notRelevant ∧
    ∃ result ∈ search.results, result.documentId = doc ∧
      (req.usefulChunkIds.getD [] = [] ∨ result.chunkId ∈ req.usefulChunkIds.getD [])

/-- In every run, whatever the order of the database calls of its searches, verdicts, purges,
    updates and eval runs, every case rests on feedback. -/
theorem eval_cases_rest_on_feedback (settings : CaptureSettings) (fns : GainFunctions K)
    (queryKey : String → String) (es : List (Event EvalRequest))
    (s : ProcessPool.Pool (EvalTables K queryKey) (EvalCall K))
    (hrun : EventRun.exec (ProcessPool.step (evals settings fns)) ⟨.empty K queryKey, []⟩ es =
      some s)
    (row : EvalCaseRow) (hrow : row ∈ s.shared.cases.rows) : RestsOnFeedback es queryKey row := by
  have hempty : EarnedTables (fun a => Event.start a ∈ es) (EvalTables.empty K queryKey) :=
    ⟨fun _ h => absurd h List.not_mem_nil, fun _ h => absurd h List.not_mem_nil⟩
  have hs := ProcessPool.exec_holds earned_guaranteed (ProcessPool.holds_of_no_procs hempty)
    (fun _ h => h) hrun
  have hearned := hs.shared.cases row hrow
  refine ⟨hearned.nonempty, hearned.nodup, hearned.grade, fun doc hdoc => ?_⟩
  obtain ⟨event, req, hpromotes, hmem⟩ := hearned.docs doc hdoc
  obtain ⟨search, hsearch, rfl⟩ := hpromotes.captured
  obtain ⟨workspaceIds, caseId, now, hfeedback, hallowed⟩ := hpromotes.allowed
  have hverdict : req.verdict ≠ .notRelevant := by
    intro hnot
    have hpromote := hpromotes.promotes
    rw [FeedbackRequest.shouldPromote, hnot] at hpromote
    cases hpromote
  exact ⟨search, workspaceIds, req, caseId, now, hsearch, hfeedback, hpromotes.workspace, hallowed,
    hpromotes.query, hpromotes.about, hverdict, mem_expectedDocs.mp hmem⟩

end

/-- `md5(lower(query_text))` of the one query of the runs below. -/
def refundKey (query : String) : String :=
  if query = "refund policy" then "ada9f408637703989c5038bea116b1b9" else query

def refundSearch : CapturedSearch where
  eventId := "ev_1"
  transport := "rest"
  workspaceId := "w"
  userId := some "u"
  query := "refund policy"
  searchMode := "hybrid"
  results := [⟨"doc_a", "chunk_1", 4 / 5⟩, ⟨"doc_b", "chunk_2", 1 / 2⟩]
  qualityVerdict := none
  processingTimeMs := 12
  now := 100

def refundFeedback : FeedbackRequest where
  eventId := "ev_1"
  verdict := .answered
  usefulChunkIds := some ["chunk_1"]
  note := none

/-- A search, and feedback that names the chunk of one of its two documents. -/
def refundEvents : List (Event EvalRequest) :=
  [.start (.search refundSearch), .advance 0,
    .start (.feedback ["w"] refundFeedback "case_1" 200), .advance 1, .advance 1, .advance 1]

def refundCase : EvalCaseRow where
  caseId := "case_1"
  workspaceId := "w"
  queryText := "refund policy"
  expectedDocIds := ["doc_a"]
  relevanceGrade := 2
  active := true
  sourceEventId := "ev_1"
  createdAt := 200

noncomputable def refundProgram :
    ProcessPool.Program (EvalTables ℝ refundKey) (EvalCall ℝ) EvalRequest :=
  evals ⟨true, []⟩ realGainFunctions

theorem refundEvents_run : ∃ s,
    EventRun.exec (ProcessPool.step refundProgram) ⟨.empty ℝ refundKey, []⟩ refundEvents =
      some s ∧
    s.shared.cases.rows = [refundCase] ∧
    s.procs = [.searched refundSearch.event true,
      .feedbackGiven refundSearch.event refundFeedback (some "case_1")] := by
  refine ⟨_, rfl, ?_, ?_⟩
  · decide +kernel
  · rfl

theorem eval_cases_rest_on_feedback_refund :
    RestsOnFeedback refundEvents refundKey refundCase := by
  obtain ⟨s, hrun, hcases, -⟩ := refundEvents_run
  have hrow : refundCase ∈ s.shared.cases.rows := by
    rw [hcases]
    exact List.mem_singleton_self _
  exact eval_cases_rest_on_feedback _ realGainFunctions refundKey refundEvents s hrun refundCase hrow

/-! ## Kept evidence -/

section

variable {K : Type} {queryKey : String → String} {workspaceId : String}
  {db db' : EvalTables K queryKey}

/-- Some case of the workspace has this id and query, these documents and at least this grade. -/
def HasEvidence (db : EvalTables K queryKey) (workspaceId caseId queryText : String)
    (docs : List String) (grade : Nat) : Prop :=
  ∃ row ∈ db.cases.rows, row.caseId = caseId ∧ row.key queryKey = (workspaceId, queryKey queryText) ∧
    (∀ doc ∈ docs, doc ∈ row.expectedDocIds) ∧ grade ≤ row.relevanceGrade

/-- Every case of the workspace is still there, with at least its documents and its grade. -/
def CasesGrow (workspaceId : String) (db db' : EvalTables K queryKey) : Prop :=
  ∀ row ∈ db.cases.rows, row.workspaceId = workspaceId → ∃ row' ∈ db'.cases.rows,
    row'.caseId = row.caseId ∧ row'.key queryKey = row.key queryKey ∧
    (∀ doc ∈ row.expectedDocIds, doc ∈ row'.expectedDocIds) ∧
    row.relevanceGrade ≤ row'.relevanceGrade

theorem CasesGrow.of_eq (h : db'.cases = db.cases) : CasesGrow workspaceId db db' :=
  fun row hrow _ => ⟨row, h ▸ hrow, rfl, rfl, fun _ hdoc => hdoc, le_refl _⟩

theorem HasEvidence.grow {caseId queryText : String} {docs : List String} {grade : Nat}
    (h : HasEvidence db workspaceId caseId queryText docs grade)
    (hgrow : CasesGrow workspaceId db db') :
    HasEvidence db' workspaceId caseId queryText docs grade := by
  obtain ⟨row, hrow, hid, hkey, hdocs, hgrade⟩ := h
  obtain ⟨row', hrow', hid', hkey', hdocs', hgrade'⟩ := hgrow row hrow (Prod.mk.inj hkey).1
  exact ⟨row', hrow', hid'.trans hid, hkey'.trans hkey,
    fun doc hdoc => hdocs' doc (hdocs doc hdoc), le_trans hgrade hgrade'⟩

theorem mem_merge_left {row old : EvalCaseRow} {doc : String} (h : doc ∈ old.expectedDocIds) :
    doc ∈ (row.merge old).expectedDocIds :=
  mem_jsonbAggDistinct.mpr (List.mem_append_left _ h)

theorem mem_merge_right {row old : EvalCaseRow} {doc : String} (h : doc ∈ row.expectedDocIds) :
    doc ∈ (row.merge old).expectedDocIds :=
  mem_jsonbAggDistinct.mpr (List.mem_append_right _ h)

/-- The case of a query after its upsert. -/
theorem find?_upsertCase_self (db : EvalTables K queryKey) (row : EvalCaseRow) :
    (db.cases.upsert row row.merge fun _ => rfl).find? (row.key queryKey) =
      some ((db.cases.find? (row.key queryKey)).elim row row.merge) :=
  UniqueTable.find?_upsert_self

/-- An upsert of a case takes nothing from the others, and adds to its own. -/
theorem casesGrow_upsert {row : EvalCaseRow} :
    CasesGrow workspaceId db
      { db with cases := db.cases.upsert row row.merge fun _ => rfl } := by
  intro old hold _
  by_cases hkey : old.key queryKey = row.key queryKey
  · have hfind : db.cases.find? (row.key queryKey) = some old :=
      UniqueTable.find?_eq_some.mpr ⟨hold, hkey⟩
    have hself := find?_upsertCase_self db row
    rw [hfind, Option.elim_some] at hself
    obtain ⟨hmem, -⟩ := UniqueTable.find?_eq_some.mp hself
    exact ⟨_, hmem, rfl, rfl, fun doc hdoc => mem_merge_left hdoc, le_max_left _ _⟩
  · have hfind : db.cases.find? (old.key queryKey) = some old :=
      UniqueTable.find?_eq_some.mpr ⟨hold, rfl⟩
    have hkept : (db.cases.upsert row row.merge fun _ => rfl).find? (old.key queryKey) = some old :=
      (UniqueTable.find?_upsert_of_ne hkey).trans hfind
    exact ⟨old, (UniqueTable.find?_eq_some.mp hkept).1, rfl, rfl, fun _ hdoc => hdoc, le_refl _⟩

/-- After its upsert, the evidence of a feedback is in the case whose id is returned. -/
theorem hasEvidence_upsert {row : EvalCaseRow} {surviving : String}
    (h : db.upsertEvalCase row = some (db', surviving)) :
    HasEvidence db' row.workspaceId surviving row.queryText row.expectedDocIds
      row.relevanceGrade := by
  obtain ⟨rfl, rfl⟩ := upsertEvalCase_eq_some h
  obtain ⟨hmem, hkey⟩ := UniqueTable.find?_eq_some.mp (find?_upsertCase_self db row)
  refine ⟨_, hmem, rfl, hkey, ?_, ?_⟩
  · intro doc hdoc
    cases db.cases.find? (row.key queryKey) with
    | none => exact hdoc
    | some old => exact mem_merge_right hdoc
  · cases db.cases.find? (row.key queryKey) with
    | none => exact le_refl _
    | some old => exact le_max_right _ _

/-- The requests that take cases of the workspace out of the replay. -/
def Retires (workspaceId : String) : EvalRequest → Prop
  | .deleteEvents w includeCases => w = workspaceId ∧ includeCases = true
  | .patchCase w _ active => w = workspaceId ∧ active = false
  | _ => False

/-- No request retires cases of the workspace, and what was promoted is there. -/
def EvalCall.Keeps (workspaceId : String) (db : EvalTables K queryKey) : EvalCall K → Prop
  | .delete w includeCases => ¬ (w = workspaceId ∧ includeCases = true)
  | .patch w _ active => ¬ (w = workspaceId ∧ active = false)
  | .promote _ req _ grade _ => gradeByVerdict req.verdict = some grade
  | .feedbackGiven event req (some caseId) =>
    event.workspaceId = workspaceId → ∀ grade, gradeByVerdict req.verdict = some grade →
      HasEvidence db workspaceId caseId event.queryText (expectedDocs event req) grade
  | _ => True

theorem EvalCall.Keeps.grow {call : EvalCall K} (h : call.Keeps workspaceId db)
    (hgrow : CasesGrow workspaceId db db') : call.Keeps workspaceId db' := by
  cases call with
  | feedbackGiven event req promotedTo =>
    cases promotedTo with
    | none => trivial
    | some caseId =>
      intro hworkspace grade hgrade
      exact (h hworkspace grade hgrade).grow hgrow
  | _ => exact h

theorem EvalCall.OfRun.keeps {call : EvalCall K} (h : call.OfRun) : call.Keeps workspaceId db := by
  cases call with
  | delete w includeCases => exact h.elim
  | patch w caseId active => exact h.elim
  | promote event req caseId grade now => exact h.elim
  | feedbackGiven event req promotedTo => exact h.elim
  | _ => trivial

theorem keeps_afterVerdict {event : EvalEvent} {req : FeedbackRequest} {caseId : String}
    {now : Nat} : (afterVerdict event req caseId now : EvalCall K).Keeps workspaceId db := by
  unfold afterVerdict
  cases hgrade : gradeByVerdict req.verdict with
  | none => trivial
  | some grade =>
    by_cases hpromote : req.shouldPromote = true
    · by_cases hempty : (expectedDocs event req).isEmpty
      · simp [hpromote, hempty, EvalCall.Keeps]
      · simp [hpromote, hempty, EvalCall.Keeps, hgrade]
    · simp [hpromote, EvalCall.Keeps]

theorem keeps_interrupt {call : EvalCall K} (h : call.Keeps workspaceId db) :
    call.interrupt.Keeps workspaceId db := by
  cases call with
  | feedbackGiven event req promotedTo => exact h
  | _ => trivial

/-- All cases of the workspace are active. -/
def AllActive (workspaceId : String) (db : EvalTables K queryKey) : Prop :=
  ∀ row ∈ db.cases.rows, row.workspaceId = workspaceId → row.active = true

/-- An upsert writes active rows only. -/
theorem allActive_upsert {row : EvalCaseRow} (hdb : AllActive workspaceId db)
    (hactive : row.active = true) :
    AllActive workspaceId { db with cases := db.cases.upsert row row.merge fun _ => rfl } := by
  intro c hc hworkspace
  have hc : c ∈ (db.cases.upsert row row.merge fun _ => rfl).rows := hc
  obtain ⟨hmem, -⟩ | ⟨old, -, -, rfl⟩ | ⟨rfl, -⟩ := UniqueTable.mem_upsert hc
  · exact hdb c hmem hworkspace
  · rfl
  · exact hactive

end

section

variable {K : Type} [Field K] [LinearOrder K] [IsStrictOrderedRing K] {queryKey : String → String}
  {workspaceId : String} {settings : CaptureSettings} {fns : GainFunctions K}

/-- A call of the database of a request that retires nothing. -/
theorem keeps_advance {db db' : EvalTables K queryKey} {call call' : EvalCall K}
    (hdb : AllActive workspaceId db) (hcall : call.Keeps workspaceId db)
    (h : call.advance fns db = some (db', call')) :
    AllActive workspaceId db' ∧ call'.Keeps workspaceId db' ∧ CasesGrow workspaceId db db' := by
  by_cases hrun : call.OfRun
  · obtain ⟨-, hcases, hrun'⟩ := advance_of_run hrun h
    exact ⟨fun row hrow => hdb row (hcases ▸ hrow), hrun'.keeps, CasesGrow.of_eq hcases⟩
  cases call with
  | capture event =>
    simp only [EvalCall.advance, Option.some.injEq, Prod.mk.injEq] at h
    obtain ⟨rfl, rfl⟩ := h
    exact ⟨hdb, trivial, CasesGrow.of_eq rfl⟩
  | fetchEvent workspaceIds req caseId now =>
    cases hevent : db.getEvalEvent req.eventId workspaceIds with
    | none =>
      simp only [EvalCall.advance, hevent, Option.some.injEq, Prod.mk.injEq] at h
      obtain ⟨rfl, rfl⟩ := h
      exact ⟨hdb, trivial, CasesGrow.of_eq rfl⟩
    | some event =>
      simp only [EvalCall.advance, hevent, Option.some.injEq, Prod.mk.injEq] at h
      obtain ⟨rfl, rfl⟩ := h
      exact ⟨hdb, trivial, CasesGrow.of_eq rfl⟩
  | recordVerdict event req caseId now =>
    simp only [EvalCall.advance, Option.some.injEq, Prod.mk.injEq] at h
    obtain ⟨rfl, rfl⟩ := h
    exact ⟨hdb, keeps_afterVerdict, CasesGrow.of_eq rfl⟩
  | promote event req caseId grade now =>
    cases hupsert : db.upsertEvalCase (req.caseRow event caseId grade now) with
    | none =>
      simp only [EvalCall.advance, hupsert, Option.some.injEq, Prod.mk.injEq] at h
      obtain ⟨rfl, rfl⟩ := h
      exact ⟨hdb, trivial, CasesGrow.of_eq rfl⟩
    | some result =>
      obtain ⟨db₁, surviving⟩ := result
      simp only [EvalCall.advance, hupsert, Option.some.injEq, Prod.mk.injEq] at h
      obtain ⟨rfl, rfl⟩ := h
      have hevidence := hasEvidence_upsert hupsert
      obtain ⟨rfl, -⟩ := upsertEvalCase_eq_some hupsert
      refine ⟨allActive_upsert hdb rfl, ?_, casesGrow_upsert⟩
      · intro hworkspace grade' hgrade'
        have hsame : grade' = grade := Option.some.inj (hgrade'.symm.trans hcall)
        rw [hsame, ← hworkspace]
        exact hevidence
  | purge w cutoff =>
    simp only [EvalCall.advance, Option.some.injEq, Prod.mk.injEq] at h
    obtain ⟨rfl, rfl⟩ := h
    exact ⟨hdb, trivial, CasesGrow.of_eq rfl⟩
  | delete w includeCases =>
    simp only [EvalCall.advance, Option.some.injEq, Prod.mk.injEq] at h
    obtain ⟨rfl, rfl⟩ := h
    cases includeCases with
    | false => exact ⟨hdb, trivial, CasesGrow.of_eq rfl⟩
    | true =>
      -- the deleted cases are those of another workspace
      refine ⟨fun row hrow => hdb row (UniqueTable.mem_filter.mp hrow).1, trivial,
        fun row hrow hworkspace => ⟨row, ?_, rfl, rfl, fun _ hdoc => hdoc, le_refl _⟩⟩
      refine UniqueTable.mem_filter.mpr ⟨hrow, decide_eq_true fun hw => ?_⟩
      exact hcall ⟨hw.symm.trans hworkspace, rfl⟩
  | patch w caseId active =>
    simp only [EvalCall.advance, Option.some.injEq, Prod.mk.injEq] at h
    obtain ⟨rfl, rfl⟩ := h
    refine ⟨fun row hrow hworkspace => ?_, trivial, fun row hrow hworkspace => ?_⟩
    · obtain ⟨old, hold, rfl⟩ := List.mem_map.mp hrow
      by_cases hhit : old.workspaceId = w ∧ old.caseId = caseId
      · rw [if_pos hhit] at hworkspace ⊢
        show active = true
        cases hactive : active with
        | true => rfl
        | false => exact absurd ⟨hhit.1.symm.trans hworkspace, hactive⟩ hcall
      · rw [if_neg hhit] at hworkspace ⊢
        exact hdb old hold hworkspace
    · refine ⟨_, List.mem_map_of_mem hrow, ?_⟩
      by_cases hhit : row.workspaceId = w ∧ row.caseId = caseId
      · rw [if_pos hhit]
        exact ⟨rfl, rfl, fun _ hdoc => hdoc, le_refl _⟩
      · rw [if_neg hhit]
        exact ⟨rfl, rfl, fun _ hdoc => hdoc, le_refl _⟩
  | searched event advertised => cases h
  | feedbackGiven event req promotedTo => cases h
  | eventNotFound eventId => cases h
  | finished => cases h
  | _ => exact absurd trivial hrun

/-- The evidence of a run that retires nothing of the workspace is kept. -/
theorem evidence_guaranteed :
    RelyGuarantee (@evals K _ _ _ queryKey settings fns)
      (fun request => ¬ Retires workspaceId request) (AllActive workspaceId)
      (fun db call => call.Keeps workspaceId db) (fun _ _ => True) where
  symm _ _ _ := trivial
  start db request call _ hrequest hstart := by
    refine ⟨?_, fun _ _ => trivial⟩
    have hstart : startEvalRequest settings request = some call := hstart
    cases request with
    | search search =>
      simp only [startEvalRequest, Option.ite_none_right_eq_some, Option.some.injEq] at hstart
      obtain ⟨-, rfl⟩ := hstart
      trivial
    | feedback workspaceIds req caseId now => cases hstart; trivial
    | purgeExpired w cutoff => cases hstart; trivial
    | deleteEvents w includeCases => cases hstart; exact hrequest
    | patchCase w caseId active => cases hstart; exact hrequest
    | evalRun run =>
      simp only [startEvalRequest] at hstart
      split at hstart <;> cases hstart <;> trivial
  advance db _ call db' call' hdb hcall hpeers _ hadv := by
    obtain ⟨hdb', hcall', hgrow⟩ := keeps_advance hdb hcall hadv
    exact ⟨hdb', hcall', fun q hq => (hpeers q hq).grow hgrow, fun _ _ => trivial⟩
  interrupt db call _ hcall := ⟨keeps_interrupt hcall, fun _ _ => trivial⟩
  lose db _ call db' call' hdb hcall hadv :=
    keeps_interrupt (hcall.grow (keeps_advance hdb hcall hadv).2.2)

/-- In every run in which nobody deletes or disables cases of a workspace, the case that a
    promoting feedback was answered with stays in the replay set of the workspace, with all
    documents that this feedback named and at least its grade, whatever other feedback on the
    same query was interleaved with it. -/
theorem promoted_evidence_is_replayed (settings : CaptureSettings) (fns : GainFunctions K)
    (queryKey : String → String) (workspaceId : String) (es : List (Event EvalRequest))
    (hkeep : ∀ request, Event.start request ∈ es → ¬ Retires workspaceId request)
    (s : ProcessPool.Pool (EvalTables K queryKey) (EvalCall K))
    (hrun : EventRun.exec (ProcessPool.step (evals settings fns)) ⟨.empty K queryKey, []⟩ es =
      some s)
    (event : EvalEvent) (req : FeedbackRequest) (caseId : String)
    (hgiven : .feedbackGiven event req (some caseId) ∈ s.procs)
    (hworkspace : event.workspaceId = workspaceId) (grade : Nat)
    (hgrade : gradeByVerdict req.verdict = some grade) :
    ∃ row ∈ s.shared.getActiveEvalCases workspaceId none none, row.caseId = caseId ∧
      queryKey row.queryText = queryKey event.queryText ∧
      (∀ doc ∈ expectedDocs event req, doc ∈ row.expectedDocIds) ∧ grade ≤ row.relevanceGrade := by
  have hempty : AllActive workspaceId (EvalTables.empty K queryKey) :=
    fun _ h => absurd h List.not_mem_nil
  have hs := ProcessPool.exec_holds evidence_guaranteed (ProcessPool.holds_of_no_procs hempty)
    hkeep hrun
  obtain ⟨row, hrow, hid, hkey, hdocs, hle⟩ := hs.each _ hgiven hworkspace grade hgrade
  obtain ⟨hw, hquery⟩ := Prod.mk.inj hkey
  refine ⟨row, ?_, hid, hquery, hdocs, hle⟩
  rw [EvalTables.getActiveEvalCases, List.mem_mergeSort, List.mem_filter]
  refine ⟨hrow, ?_⟩
  simp [hw, hs.shared row hrow hw]

end

theorem promoted_evidence_is_replayed_refund : ∃ s,
    EventRun.exec (ProcessPool.step refundProgram) ⟨.empty ℝ refundKey, []⟩ refundEvents =
      some s ∧
    ∃ row ∈ s.shared.getActiveEvalCases "w" none none, row.caseId = "case_1" ∧
      refundKey row.queryText = refundKey "refund policy" ∧
      (∀ doc ∈ expectedDocs refundSearch.event refundFeedback, doc ∈ row.expectedDocIds) ∧
      2 ≤ row.relevanceGrade := by
  obtain ⟨s, hrun, -, hprocs⟩ := refundEvents_run
  have hgiven : .feedbackGiven refundSearch.event refundFeedback (some "case_1") ∈ s.procs := by
    rw [hprocs]
    exact List.mem_cons_of_mem _ (List.mem_singleton_self _)
  have hkeep : ∀ request, Event.start request ∈ refundEvents → ¬ Retires "w" request := by
    intro request hrequest
    obtain rfl | rfl : request = .search refundSearch ∨
        request = .feedback ["w"] refundFeedback "case_1" 200 := by
      simpa [refundEvents] using hrequest
    · exact id
    · exact id
  exact ⟨s, hrun, promoted_evidence_is_replayed _ realGainFunctions refundKey "w" refundEvents
    hkeep s hrun refundSearch.event refundFeedback "case_1" hgiven rfl 2 rfl⟩

/-! ## Advertised events -/

section

variable {K : Type} {queryKey : String → String} {workspaceId : String} {E : EvalRequest → Prop}

/-- The requests that delete events of the workspace. -/
def DropsEvents (workspaceId : String) : EvalRequest → Prop
  | .deleteEvents w _ => w = workspaceId
  | .purgeExpired w _ => w = workspaceId
  | _ => False

/-- The store: every event is that of a search. -/
def AllCaptured (E : EvalRequest → Prop) (db : EvalTables K queryKey) : Prop :=
  ∀ event ∈ db.events.rows, ∃ search : CapturedSearch, E (.search search) ∧ search.event = event

/-- No request drops events of the workspace, and what a response has advertised is there. -/
def EvalCall.Resolves (E : EvalRequest → Prop) (workspaceId : String) (db : EvalTables K queryKey) :
    EvalCall K → Prop
  | .capture event => ∃ search : CapturedSearch, E (.search search) ∧ search.event = event
  | .searched event true => event.workspaceId = workspaceId → event ∈ db.events.rows
  | .delete w _ => w ≠ workspaceId
  | .purge w _ => w ≠ workspaceId
  | _ => True

/-- Every event of the workspace is still there. -/
def EventsGrow (workspaceId : String) (db db' : EvalTables K queryKey) : Prop :=
  ∀ event ∈ db.events.rows, event.workspaceId = workspaceId → event ∈ db'.events.rows

theorem EvalCall.Resolves.grow {db db' : EvalTables K queryKey} {call : EvalCall K}
    (h : call.Resolves E workspaceId db) (hgrow : EventsGrow workspaceId db db') :
    call.Resolves E workspaceId db' := by
  cases call with
  | searched event advertised =>
    cases advertised with
    | true => exact fun hworkspace => hgrow event (h hworkspace) hworkspace
    | false => trivial
  | _ => exact h

theorem resolves_interrupt {db : EvalTables K queryKey} {call : EvalCall K}
    (h : call.Resolves E workspaceId db) : call.interrupt.Resolves E workspaceId db := by
  cases call with
  | searched event advertised => exact h
  | _ => trivial

theorem resolves_afterVerdict {db : EvalTables K queryKey} {event : EvalEvent}
    {req : FeedbackRequest} {caseId : String} {now : Nat} :
    (afterVerdict event req caseId now : EvalCall K).Resolves E workspaceId db := by
  unfold afterVerdict
  cases gradeByVerdict req.verdict with
  | none => trivial
  | some grade =>
    by_cases hpromote : req.shouldPromote = true
    · by_cases hempty : (expectedDocs event req).isEmpty
      · simp [hpromote, hempty, EvalCall.Resolves]
      · simp [hpromote, hempty, EvalCall.Resolves]
    · simp [hpromote, EvalCall.Resolves]

theorem EvalCall.OfRun.resolves {db : EvalTables K queryKey} {call : EvalCall K} (h : call.OfRun) :
    call.Resolves E workspaceId db := by
  cases call with
  | capture event => exact h.elim
  | searched event advertised => exact h.elim
  | delete w includeCases => exact h.elim
  | purge w cutoff => exact h.elim
  | _ => trivial

end

section

variable {K : Type} [Field K] [LinearOrder K] [IsStrictOrderedRing K] {queryKey : String → String}
  {workspaceId : String} {settings : CaptureSettings} {fns : GainFunctions K}
  {E : EvalRequest → Prop}

/-- A call of the database of a request that drops no event of the workspace. -/
theorem resolves_advance (hids : ∀ s₁ s₂ : CapturedSearch, E (.search s₁) → E (.search s₂) →
      s₁.eventId = s₂.eventId → s₁ = s₂)
    {db db' : EvalTables K queryKey} {call call' : EvalCall K} (hdb : AllCaptured E db)
    (hcall : call.Resolves E workspaceId db) (h : call.advance fns db = some (db', call')) :
    AllCaptured E db' ∧ call'.Resolves E workspaceId db' ∧ EventsGrow workspaceId db db' := by
  by_cases hrun : call.OfRun
  · obtain ⟨hevents, -, hrun'⟩ := advance_of_run hrun h
    exact ⟨fun e he => hdb e (hevents ▸ he), hrun'.resolves, fun e he _ => hevents ▸ he⟩
  cases call with
  | capture event =>
    simp only [EvalCall.advance, Option.some.injEq, Prod.mk.injEq] at h
    obtain ⟨rfl, rfl⟩ := h
    obtain ⟨search, hsearch, rfl⟩ := hcall
    refine ⟨fun e he => ?_, fun _ => ?_, fun e he _ =>
      (UniqueTable.rows_prefix_insertNew db.events search.event).subset he⟩
    · obtain he | rfl := UniqueTable.mem_of_mem_insertNew he
      · exact hdb e he
      · exact ⟨search, hsearch, rfl⟩
    · show search.event ∈ (db.events.insertNew search.event).rows
      by_cases hheld : db.events.Holds search.event.eventId
      · -- the row that holds the id is that of the same search
        obtain ⟨e, he, hid⟩ := UniqueTable.holds_iff.mp hheld
        obtain ⟨other, hother, rfl⟩ := hdb e he
        rw [UniqueTable.insertNew_of_holds hheld, ← hids other search hother hsearch hid]
        exact he
      · rw [UniqueTable.rows_insertNew_of_not_holds hheld]
        exact List.mem_append_right _ (List.mem_singleton_self _)
  | fetchEvent workspaceIds req caseId now =>
    cases hevent : db.getEvalEvent req.eventId workspaceIds with
    | none =>
      simp only [EvalCall.advance, hevent, Option.some.injEq, Prod.mk.injEq] at h
      obtain ⟨rfl, rfl⟩ := h
      exact ⟨hdb, trivial, fun _ he _ => he⟩
    | some event =>
      simp only [EvalCall.advance, hevent, Option.some.injEq, Prod.mk.injEq] at h
      obtain ⟨rfl, rfl⟩ := h
      exact ⟨hdb, trivial, fun _ he _ => he⟩
  | recordVerdict event req caseId now =>
    simp only [EvalCall.advance, Option.some.injEq, Prod.mk.injEq] at h
    obtain ⟨rfl, rfl⟩ := h
    exact ⟨hdb, resolves_afterVerdict, fun _ he _ => he⟩
  | promote event req caseId grade now =>
    cases hupsert : db.upsertEvalCase (req.caseRow event caseId grade now) with
    | none =>
      simp only [EvalCall.advance, hupsert, Option.some.injEq, Prod.mk.injEq] at h
      obtain ⟨rfl, rfl⟩ := h
      exact ⟨hdb, trivial, fun _ he _ => he⟩
    | some result =>
      obtain ⟨db₁, surviving⟩ := result
      simp only [EvalCall.advance, hupsert, Option.some.injEq, Prod.mk.injEq] at h
      obtain ⟨rfl, rfl⟩ := h
      obtain ⟨rfl, -⟩ := upsertEvalCase_eq_some hupsert
      exact ⟨hdb, trivial, fun _ he _ => he⟩
  | purge w cutoff =>
    simp only [EvalCall.advance, Option.some.injEq, Prod.mk.injEq] at h
    obtain ⟨rfl, rfl⟩ := h
    refine ⟨fun e he => hdb e (UniqueTable.mem_filter.mp he).1, trivial, fun e he hworkspace =>
      UniqueTable.mem_filter.mpr ⟨he, decide_eq_true fun hexpired => ?_⟩⟩
    exact hcall (hexpired.1.symm.trans hworkspace)
  | delete w includeCases =>
    simp only [EvalCall.advance, Option.some.injEq, Prod.mk.injEq] at h
    obtain ⟨rfl, rfl⟩ := h
    refine ⟨fun e he => hdb e (UniqueTable.mem_filter.mp he).1, trivial, fun e he hworkspace =>
      UniqueTable.mem_filter.mpr ⟨he, decide_eq_true fun hw => ?_⟩⟩
    exact hcall (hw.symm.trans hworkspace)
  | patch w caseId active =>
    simp only [EvalCall.advance, Option.some.injEq, Prod.mk.injEq] at h
    obtain ⟨rfl, rfl⟩ := h
    exact ⟨hdb, trivial, fun _ he _ => he⟩
  | searched event advertised => cases h
  | feedbackGiven event req promotedTo => cases h
  | eventNotFound eventId => cases h
  | finished => cases h
  | _ => exact absurd trivial hrun

/-- The advertised events of a run that drops none of the workspace are there. -/
theorem events_guaranteed (hids : ∀ s₁ s₂ : CapturedSearch, E (.search s₁) → E (.search s₂) →
      s₁.eventId = s₂.eventId → s₁ = s₂) :
    RelyGuarantee (@evals K _ _ _ queryKey settings fns)
      (fun request => E request ∧ ¬ DropsEvents workspaceId request) (AllCaptured E)
      (fun db call => call.Resolves E workspaceId db) (fun _ _ => True) where
  symm _ _ _ := trivial
  start db request call _ hrequest hstart := by
    refine ⟨?_, fun _ _ => trivial⟩
    have hstart : startEvalRequest settings request = some call := hstart
    cases request with
    | search search =>
      simp only [startEvalRequest, Option.ite_none_right_eq_some, Option.some.injEq] at hstart
      obtain ⟨-, rfl⟩ := hstart
      exact ⟨search, hrequest.1, rfl⟩
    | feedback workspaceIds req caseId now => cases hstart; trivial
    | purgeExpired w cutoff => cases hstart; exact hrequest.2
    | deleteEvents w includeCases => cases hstart; exact hrequest.2
    | patchCase w caseId active => cases hstart; trivial
    | evalRun run =>
      simp only [startEvalRequest] at hstart
      split at hstart <;> cases hstart <;> trivial
  advance db _ call db' call' hdb hcall hpeers _ hadv := by
    obtain ⟨hdb', hcall', hgrow⟩ := resolves_advance hids hdb hcall hadv
    exact ⟨hdb', hcall', fun q hq => (hpeers q hq).grow hgrow, fun _ _ => trivial⟩
  interrupt db call _ hcall := ⟨resolves_interrupt hcall, fun _ _ => trivial⟩
  lose db _ call db' call' hdb hcall hadv :=
    resolves_interrupt (hcall.grow (resolves_advance hids hdb hcall hadv).2.2)

end

end Inherent
