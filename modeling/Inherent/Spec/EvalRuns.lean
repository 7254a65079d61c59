import Inherent.Spec.EvalCases

/-!
# Whole eval runs

What the report of an eval run says while feedback, case updates and other runs go on: a run
that reads `completed` has replayed all of its cases in every mode, and a run that does not has
no aggregates.
-/

namespace Inherent

open ProcessPool (Holds RelyGuarantee StartsMeet Event)

/-! ## One replay -/

section

variable {K : Type} [Field K] [LinearOrder K] [IsStrictOrderedRing K] {fns : GainFunctions K}
  {run : RunRequest} {cases : List EvalCaseRow} {rows : List (EvalRow K)}

/-- A traversal that succeeds pairs each item with its result. -/
theorem forall₂_of_mapM_eq_some {α β : Type*} {f : α → Option β} {l : List α} {bs : List β}
    (h : l.mapM f = some bs) : List.Forall₂ (fun a b => f a = some b) l bs := by
  induction l generalizing bs with
  | nil =>
    obtain rfl : bs = [] := by simpa using h.symm
    exact .nil
  | cons a l ih =>
    rw [List.mapM_cons] at h
    obtain ⟨b, hb, hrest⟩ := Option.bind_eq_some_iff.mp h
    obtain ⟨bs', hbs', hpure⟩ := Option.bind_eq_some_iff.mp hrest
    obtain rfl : b :: bs' = bs := Option.some.inj hpure
    exact .cons hb (ih hbs')

/-- An item on the right of a pairing has its partner on the left. -/
theorem exists_left_of_mem {α β : Type*} {R : α → β → Prop} {l : List α} {bs : List β} {b : β}
    (h : List.Forall₂ R l bs) (hb : b ∈ bs) : ∃ a ∈ l, R a b := by
  induction h with
  | nil => exact absurd hb List.not_mem_nil
  | @cons a b' l bs hab _ ih =>
    obtain rfl | hb := List.mem_cons.mp hb
    · exact ⟨a, List.mem_cons_self, hab⟩
    · obtain ⟨a', ha', hR⟩ := ih hb
      exact ⟨a', List.mem_cons_of_mem _ ha', hR⟩

/-- Every row of a replay is the score of a case in a mode. -/
theorem mem_replay (h : run.replay fns cases = some rows) {row : EvalRow K} (hrow : row ∈ rows) :
    ∃ c ∈ cases, ∃ mode ∈ evalModes, ∃ ranked, run.search mode c.queryText = some ranked ∧
      row = scoreCaseMode fns c.toEvalCase mode run.k ranked := by
  obtain ⟨pair, hpair, hscore⟩ := exists_left_of_mem (forall₂_of_mapM_eq_some h) hrow
  obtain ⟨c, hc, hmode⟩ := List.mem_flatMap.mp hpair
  obtain ⟨mode, hmem, rfl⟩ := List.mem_map.mp hmode
  obtain ⟨ranked, hranked, rfl⟩ := Option.map_eq_some_iff.mp hscore
  exact ⟨c, hc, mode, hmem, ranked, hranked, rfl⟩

/-- The modes of the rows are those of the pairs that were replayed. -/
theorem map_mode_replay (h : run.replay fns cases = some rows) :
    rows.map (·.mode) = cases.flatMap fun _ => evalModes := by
  have hmodes : ∀ {l : List (EvalCaseRow × String)} {rows : List (EvalRow K)},
      List.Forall₂ (fun pair row => run.scoreRow fns pair.1 pair.2 = some row) l rows →
      rows.map (·.mode) = l.map Prod.snd := by
    intro l rows hpairs
    induction hpairs with
    | nil => rfl
    | cons hscore _ ih =>
      obtain ⟨ranked, -, rfl⟩ := Option.map_eq_some_iff.mp hscore
      rw [List.map_cons, List.map_cons, ih]
      rfl
  rw [hmodes (forall₂_of_mapM_eq_some h), List.map_flatMap]
  simp only [List.map_map, Function.comp_def, List.map_id']

/-- In each mode there is one row for each case. -/
theorem length_filter_mode (h : run.replay fns cases = some rows) {mode : String}
    (hmode : mode ∈ evalModes) : (rows.filter fun row => row.mode = mode).length = cases.length := by
  have hcount : (rows.filter fun row => row.mode = mode).length =
      (rows.map (·.mode)).count mode := by
    rw [← List.countP_eq_length_filter, List.count, List.countP_map]
    rfl
  have honce : evalModes.count mode = 1 := by
    simp only [evalModes, List.mem_cons, List.not_mem_nil, or_false] at hmode
    obtain rfl | rfl | rfl := hmode <;> rfl
  rw [hcount, map_mode_replay h, List.count_flatMap]
  simp [Function.comp_def, honce]

/-- The mean of numbers of the unit interval, over their number or `1` if there are none. -/
theorem mean_mem_Icc {α R : Type*} [Field R] [LinearOrder R] [IsStrictOrderedRing R] (l : List α)
    (f : α → R) (h : ∀ a ∈ l, f a ∈ Set.Icc (0 : R) 1) :
    (l.map f).sum / ((if l.length = 0 then 1 else l.length : Nat) : R) ∈ Set.Icc (0 : R) 1 := by
  have hnonneg : 0 ≤ (l.map f).sum := by
    refine List.sum_nonneg fun x hx => ?_
    obtain ⟨a, ha, rfl⟩ := List.mem_map.mp hx
    exact (h a ha).1
  have hle : (l.map f).sum ≤ l.length := by
    have hcard := List.sum_le_card_nsmul (l.map f) 1 fun x hx => by
      obtain ⟨a, ha, rfl⟩ := List.mem_map.mp hx
      exact (h a ha).2
    rwa [nsmul_one, List.length_map] at hcard
  by_cases hlen : l.length = 0
  · obtain rfl := List.eq_nil_of_length_eq_zero hlen
    simp
  · rw [if_neg hlen]
    have hpos : (0 : R) < l.length := by exact_mod_cast Nat.pos_of_ne_zero hlen
    exact ⟨div_nonneg hnonneg hpos.le, (div_le_one hpos).mpr hle⟩

/-- The aggregates of a replay lie between `0` and `1`. -/
theorem evalAggregates_mem_Icc (h : run.replay fns cases = some rows)
    {mode : String} {metrics : ModeMetrics K} (hmem : (mode, metrics) ∈ evalAggregates rows) :
    metrics.recallAtK ∈ Set.Icc (0 : ℚ) 1 ∧ metrics.mrr ∈ Set.Icc (0 : ℚ) 1 ∧
      metrics.ndcgAtK ∈ Set.Icc (0 : K) 1 := by
  obtain ⟨mode', -, hmetrics⟩ := List.mem_map.mp hmem
  obtain ⟨rfl, rfl⟩ := Prod.mk.inj hmetrics
  have hrows : ∀ row ∈ rows.filter fun row => row.mode = mode',
      row.recallAtK ∈ Set.Icc (0 : ℚ) 1 ∧ row.mrr ∈ Set.Icc (0 : ℚ) 1 ∧
        row.ndcgAtK ∈ Set.Icc (0 : K) 1 := by
    intro row hrow
    obtain ⟨c, -, mode, -, ranked, -, rfl⟩ := mem_replay h (List.mem_filter.mp hrow).1
    exact scoreCaseMode_mem_Icc fns _ _ _ _
  exact ⟨mean_mem_Icc _ _ fun row hrow => (hrows row hrow).1,
    mean_mem_Icc _ _ fun row hrow => (hrows row hrow).2.1,
    mean_mem_Icc _ _ fun row hrow => (hrows row hrow).2.2⟩

end

/-! ## Runs among other requests -/

section

variable {K : Type} {queryKey : String → String} {db db' : EvalTables K queryKey}
  {E : EvalRequest → Prop}

/-- The cases that the filters of a run admit. -/
structure InScope (run : RunRequest) (row : EvalCaseRow) : Prop where
  workspace : row.workspaceId = run.workspaceId
  active : row.active = true
  ids : ∀ ids, run.caseIds = some ids → ids ≠ [] → row.caseId ∈ ids
  since : ∀ instant, run.since = some instant → instant ≤ row.createdAt

theorem inScope_of_mem {run : RunRequest} {row : EvalCaseRow}
    (h : row ∈ db.getActiveEvalCases run.workspaceId run.caseIds run.since) : InScope run row := by
  rw [EvalTables.getActiveEvalCases, List.mem_mergeSort, List.mem_filter, decide_eq_true_eq] at h
  obtain ⟨-, hworkspace, hactive, hids, hsince⟩ := h
  exact ⟨hworkspace, hactive, hids, hsince⟩

/-- The run that a request has created and still writes to. -/
def EvalCall.owner : EvalCall K → Option String
  | .fetchCases run | .storeRows run _ _ | .completeRun run _ _ | .failRun run => some run.runId
  | _ => none

/-- A run of the table: its row and its results as they were. -/
structure SameRun (db db' : EvalTables K queryKey) (runId : String) : Prop where
  row : db'.runs.find? runId = db.runs.find? runId
  results : db'.getEvalRunResults runId = db.getEvalRunResults runId

theorem SameRun.of_eq (hruns : db'.runs = db.runs) (hresults : db'.results = db.results)
    (runId : String) : SameRun db db' runId :=
  ⟨by rw [hruns], by rw [EvalTables.getEvalRunResults, hresults]; rfl⟩

theorem sameRun_insertEvalRun {runId workspaceId : String} {caseCount : Nat} {k : ℤ}
    (h : db.insertEvalRun runId workspaceId caseCount k = some db') {id : String}
    (hne : id ≠ runId) : SameRun db db' id := by
  by_cases hheld : db.runs.Holds runId
  · simp [EvalTables.insertEvalRun, hheld] at h
  · simp only [EvalTables.insertEvalRun, if_neg hheld, Option.some.injEq] at h
    subst h
    refine ⟨UniqueTable.find?_congr fun r hr => ?_, rfl⟩
    rw [UniqueTable.rows_insertNew_of_not_holds hheld, List.mem_append, List.mem_singleton,
      or_iff_left]
    rintro rfl
    exact hne hr.symm

theorem sameRun_insertEvalRunResults {runId : String} {rows : List (EvalRow K)}
    (h : db.insertEvalRunResults runId rows = some db') {id : String} (hne : id ≠ runId) :
    SameRun db db' id := by
  by_cases hempty : rows.isEmpty
  · simp [EvalTables.insertEvalRunResults, hempty] at h
  · simp only [EvalTables.insertEvalRunResults, if_neg hempty, Option.some.injEq] at h
    subst h
    refine ⟨rfl, ?_⟩
    simp [EvalTables.getEvalRunResults, List.filter_append, List.filter_map, Function.comp_def,
      hne.symm]

/-- Its own rows are those it had and the new ones. -/
theorem getEvalRunResults_insert {runId : String} {rows : List (EvalRow K)}
    (h : db.insertEvalRunResults runId rows = some db') :
    rows ≠ [] ∧ db'.runs = db.runs ∧
      db'.getEvalRunResults runId = db.getEvalRunResults runId ++ rows := by
  by_cases hempty : rows.isEmpty
  · simp [EvalTables.insertEvalRunResults, hempty] at h
  · simp only [EvalTables.insertEvalRunResults, if_neg hempty, Option.some.injEq] at h
    subst h
    refine ⟨by simpa using hempty, rfl, ?_⟩
    simp [EvalTables.getEvalRunResults, List.filter_append, List.filter_map, Function.comp_def]

theorem sameRun_finishEvalRun {runId : String} {status : RunStatus}
    {aggregates : List (String × ModeMetrics K)} {error : Option String} {id : String}
    (hne : id ≠ runId) : SameRun db (db.finishEvalRun runId status aggregates error) id := by
  refine ⟨?_, rfl⟩
  rw [EvalTables.finishEvalRun, UniqueTable.find?_update]
  cases hfind : db.runs.find? id with
  | none => rfl
  | some run =>
    have hid : run.runId ≠ runId := (UniqueTable.find?_eq_some.mp hfind).2 ▸ hne
    rw [Option.map_some, if_neg hid]

theorem holds_finishEvalRun {runId id : String} {status : RunStatus}
    {aggregates : List (String × ModeMetrics K)} {error : Option String}
    (h : db.runs.Holds id) : (db.finishEvalRun runId status aggregates error).runs.Holds id := by
  obtain ⟨row, hrow⟩ := UniqueTable.exists_find? h
  by_contra hnot
  rw [← UniqueTable.find?_eq_none, EvalTables.finishEvalRun, UniqueTable.find?_update, hrow] at hnot
  cases hnot

/-- The row of a run after its last write. -/
theorem find?_finishEvalRun {runId : String} {status : RunStatus}
    {aggregates : List (String × ModeMetrics K)} {error : Option String} {run : EvalRun K}
    (h : (db.finishEvalRun runId status aggregates error).runs.find? runId = some run) :
    ∃ old, db.runs.find? runId = some old ∧
      run = { old with status := status, aggregates := aggregates, error := error } := by
  rw [EvalTables.finishEvalRun, UniqueTable.find?_update] at h
  obtain ⟨old, hold, rfl⟩ := Option.map_eq_some_iff.mp h
  have hid : old.runId = runId := (UniqueTable.find?_eq_some.mp hold).2
  exact ⟨old, hold, if_pos hid⟩

end

section

variable {K : Type} [Field K] [LinearOrder K] [IsStrictOrderedRing K] {queryKey : String → String}
  {fns : GainFunctions K} {settings : CaptureSettings} {E : EvalRequest → Prop}
  {db db' : EvalTables K queryKey}

/-- The rows are those of a replay of cases in the scope of the run. -/
structure Replayed (fns : GainFunctions K) (run : RunRequest) (cases : List EvalCaseRow)
    (rows : List (EvalRow K)) : Prop where
  scope : ∀ c ∈ cases, InScope run c
  replay : run.replay fns cases = some rows
  nonempty : rows ≠ []

/-- A row of `eval_runs` with the rows of its results. -/
structure RunFits (E : EvalRequest → Prop) (fns : GainFunctions K) (run : EvalRun K)
    (results : List (EvalRow K)) : Prop where
  request : ∃ request : RunRequest, E (.evalRun request) ∧ request.runId = run.runId ∧
    request.workspaceId = run.workspaceId ∧
    (run.status = .completed → ∃ cases, Replayed fns request cases results)
  completed : run.status = .completed → run.aggregates = evalAggregates results
  others : run.status ≠ .completed → run.aggregates = []
  error : run.error.isSome ↔ run.status = .failed

/-- The store: the runs fit their results, and there are no results without a run. -/
structure RunTables (E : EvalRequest → Prop) (fns : GainFunctions K) (db : EvalTables K queryKey) :
    Prop where
  runs : ∀ id run, db.runs.find? id = some run → RunFits E fns run (db.getEvalRunResults id)
  results : ∀ id, ¬ db.runs.Holds id → db.getEvalRunResults id = []

/-- The row of the run is there, and reads `running`. -/
def Running (E : EvalRequest → Prop) (db : EvalTables K queryKey) (run : RunRequest) : Prop :=
  E (.evalRun run) ∧ ∃ row, db.runs.find? run.runId = some row ∧
    row.workspaceId = run.workspaceId ∧ row.status = .running

/-- How far a run is, against the tables. -/
def EvalCall.RunAt (E : EvalRequest → Prop) (fns : GainFunctions K) (db : EvalTables K queryKey) :
    EvalCall K → Prop
  | .checkScope run _ | .countCases run | .insertRun run _ => E (.evalRun run)
  | .fetchCases run => Running E db run ∧ db.getEvalRunResults run.runId = []
  | .storeRows run cases rows =>
    Running E db run ∧ db.getEvalRunResults run.runId = [] ∧ (∀ c ∈ cases, InScope run c) ∧
      run.replay fns cases = some rows
  | .completeRun run cases rows =>
    Running E db run ∧ db.getEvalRunResults run.runId = rows ∧ Replayed fns run cases rows
  | .failRun run => db.runs.Holds run.runId
  | _ => True

/-- Two requests do not write to one run. -/
def OwnersApart (call call' : EvalCall K) : Prop :=
  ∀ id, call.owner = some id → call'.owner ≠ some id

theorem EvalCall.RunAt.same {call : EvalCall K} (h : call.RunAt E fns db)
    (hsame : ∀ id, call.owner = some id → SameRun db db' id) : call.RunAt E fns db' := by
  have hrunning : ∀ {run}, SameRun db db' run.runId → Running E db run → Running E db' run := by
    intro run hrun hrow
    obtain ⟨hE, row, hrow, hfacts⟩ := hrow
    exact ⟨hE, row, by rw [hrun.row, hrow], hfacts⟩
  cases call with
  | fetchCases run =>
    have hrun := hsame run.runId rfl
    exact ⟨hrunning hrun h.1, by rw [hrun.results, h.2]⟩
  | storeRows run cases rows =>
    have hrun := hsame run.runId rfl
    exact ⟨hrunning hrun h.1, by rw [hrun.results, h.2.1], h.2.2⟩
  | completeRun run cases rows =>
    have hrun := hsame run.runId rfl
    exact ⟨hrunning hrun h.1, by rw [hrun.results, h.2.1], h.2.2⟩
  | failRun run =>
    have hrun := hsame run.runId rfl
    by_contra hheld
    have hnone := UniqueTable.find?_eq_none.mpr hheld
    rw [hrun.row] at hnone
    exact UniqueTable.find?_eq_none.mp hnone h
  | _ => exact h

/-- What a request owns is in the table. -/
theorem EvalCall.RunAt.held {call : EvalCall K} (h : call.RunAt E fns db) {id : String}
    (howner : call.owner = some id) : db.runs.Holds id := by
  have hrunning : ∀ {run}, Running E db run → db.runs.Holds run.runId := by
    intro run hrow
    obtain ⟨-, row, hrow, -⟩ := hrow
    by_contra hheld
    rw [UniqueTable.find?_eq_none.mpr hheld] at hrow
    cases hrow
  cases call with
  | fetchCases run => cases howner; exact hrunning h.1
  | storeRows run cases rows => cases howner; exact hrunning h.1
  | completeRun run cases rows => cases howner; exact hrunning h.1
  | failRun run => cases howner; exact h
  | _ => cases howner

/-- A write to one run. -/
theorem RunTables.of_same (hdb : RunTables E fns db) (runId : String)
    (hsame : ∀ id, id ≠ runId → SameRun db db' id)
    (hself : ∀ run, db'.runs.find? runId = some run →
      RunFits E fns run (db'.getEvalRunResults runId))
    (hnone : ¬ db'.runs.Holds runId → db'.getEvalRunResults runId = []) :
    RunTables E fns db' := by
  constructor
  · intro id run hfind
    by_cases hid : id = runId
    · subst hid
      exact hself run hfind
    · rw [(hsame id hid).row] at hfind
      rw [(hsame id hid).results]
      exact hdb.runs id run hfind
  · intro id hheld
    by_cases hid : id = runId
    · subst hid
      exact hnone hheld
    · rw [(hsame id hid).results]
      refine hdb.results id fun hold => hheld ?_
      obtain ⟨row, hrow⟩ := UniqueTable.exists_find? hold
      rw [← (hsame id hid).row] at hrow
      obtain ⟨hmem, hkey⟩ := UniqueTable.find?_eq_some.mp hrow
      exact UniqueTable.holds_iff.mpr ⟨row, hmem, hkey⟩

end

/-! ### One call of the database -/

section

variable {K : Type} {queryKey : String → String} {db db' : EvalTables K queryKey}

/-- A request that is not a run, or has ended. -/
def EvalCall.Other : EvalCall K → Prop
  | .checkScope .. | .countCases _ | .insertRun .. | .fetchCases _ | .storeRows .. | .completeRun ..
  | .failRun _ => False
  | _ => True

theorem other_afterVerdict {event : EvalEvent} {req : FeedbackRequest} {caseId : String}
    {now : Nat} : (afterVerdict event req caseId now : EvalCall K).Other := by
  unfold afterVerdict
  cases gradeByVerdict req.verdict with
  | none => trivial
  | some grade =>
    by_cases hpromote : req.shouldPromote = true
    · by_cases hempty : (expectedDocs event req).isEmpty
      · simp [hpromote, hempty, EvalCall.Other]
      · simp [hpromote, hempty, EvalCall.Other]
    · simp [hpromote, EvalCall.Other]

theorem owner_interrupt {call : EvalCall K} {id : String} (h : call.interrupt.owner = some id) :
    call.owner = some id := by
  cases call with
  | fetchCases run => exact h
  | storeRows run cases rows => exact h
  | completeRun run cases rows => exact h
  | _ => cases h

/-- What a call leaves of the runs that others own, and the run that it owns afterwards. -/
structure LeavesOthers (db db' : EvalTables K queryKey) (call call' : EvalCall K) : Prop where
  same : ∀ id, db.runs.Holds id → call.owner ≠ some id → SameRun db db' id
  owner : ∀ id, call'.owner = some id → call.owner = some id ∨ ¬ db.runs.Holds id

theorem LeavesOthers.of_eq {call call' : EvalCall K} (hruns : db'.runs = db.runs) (hresults : db'.results = db.results)
    (howner : call'.owner = none ∨ call'.owner = call.owner) : LeavesOthers db db' call call' where
  same id _ _ := SameRun.of_eq hruns hresults id
  owner id hid := by
    obtain hnone | hsame := howner
    · rw [hnone] at hid
      cases hid
    · exact Or.inl (hsame ▸ hid)

theorem EvalCall.Other.owner {call : EvalCall K} (h : call.Other) : call.owner = none := by
  cases call <;> first | rfl | exact h.elim

end

section

variable {K : Type} [Field K] [LinearOrder K] [IsStrictOrderedRing K] {queryKey : String → String}
  {fns : GainFunctions K} {settings : CaptureSettings} {E : EvalRequest → Prop}
  {db db' : EvalTables K queryKey} {call call' : EvalCall K}

theorem EvalCall.Other.runAt (h : call.Other) : call.RunAt E fns db := by
  cases call <;> trivial

/-- Other requests leave the runs and their results as they are. -/
theorem advance_of_other (hcall : call.Other) (h : call.advance fns db = some (db', call')) :
    db'.runs = db.runs ∧ db'.results = db.results ∧ call'.Other := by
  cases call with
  | capture event =>
    simp only [EvalCall.advance, Option.some.injEq, Prod.mk.injEq] at h
    obtain ⟨rfl, rfl⟩ := h
    exact ⟨rfl, rfl, trivial⟩
  | fetchEvent workspaceIds req caseId now =>
    cases hevent : db.getEvalEvent req.eventId workspaceIds with
    | none =>
      simp only [EvalCall.advance, hevent, Option.some.injEq, Prod.mk.injEq] at h
      obtain ⟨rfl, rfl⟩ := h
      exact ⟨rfl, rfl, trivial⟩
    | some event =>
      simp only [EvalCall.advance, hevent, Option.some.injEq, Prod.mk.injEq] at h
      obtain ⟨rfl, rfl⟩ := h
      exact ⟨rfl, rfl, trivial⟩
  | recordVerdict event req caseId now =>
    simp only [EvalCall.advance, Option.some.injEq, Prod.mk.injEq] at h
    obtain ⟨rfl, rfl⟩ := h
    exact ⟨rfl, rfl, other_afterVerdict⟩
  | promote event req caseId grade now =>
    cases hupsert : db.upsertEvalCase (req.caseRow event caseId grade now) with
    | none =>
      simp only [EvalCall.advance, hupsert, Option.some.injEq, Prod.mk.injEq] at h
      obtain ⟨rfl, rfl⟩ := h
      exact ⟨rfl, rfl, trivial⟩
    | some result =>
      obtain ⟨db₁, surviving⟩ := result
      simp only [EvalCall.advance, hupsert, Option.some.injEq, Prod.mk.injEq] at h
      obtain ⟨rfl, rfl⟩ := h
      obtain ⟨rfl, -⟩ := upsertEvalCase_eq_some hupsert
      exact ⟨rfl, rfl, trivial⟩
  | purge w cutoff =>
    simp only [EvalCall.advance, Option.some.injEq, Prod.mk.injEq] at h
    obtain ⟨rfl, rfl⟩ := h
    exact ⟨rfl, rfl, trivial⟩
  | delete w includeCases =>
    simp only [EvalCall.advance, Option.some.injEq, Prod.mk.injEq] at h
    obtain ⟨rfl, rfl⟩ := h
    exact ⟨rfl, rfl, trivial⟩
  | patch w caseId active =>
    simp only [EvalCall.advance, Option.some.injEq, Prod.mk.injEq] at h
    obtain ⟨rfl, rfl⟩ := h
    exact ⟨rfl, rfl, trivial⟩
  | searched event advertised => cases h
  | feedbackGiven event req promotedTo => cases h
  | eventNotFound eventId => cases h
  | runOver run => cases h
  | rejected => cases h
  | finished => cases h
  | raised => cases h
  | _ => exact hcall.elim

/-- The run that a request creates. -/
theorem runTables_insertEvalRun (hdb : RunTables E fns db) {run : RunRequest} {caseCount : Nat}
    (hE : E (.evalRun run))
    (h : db.insertEvalRun run.runId run.workspaceId caseCount run.k = some db') :
    RunTables E fns db' ∧ Running E db' run ∧ db'.getEvalRunResults run.runId = [] ∧
      ¬ db.runs.Holds run.runId := by
  by_cases hheld : db.runs.Holds run.runId
  · simp [EvalTables.insertEvalRun, hheld] at h
  · have hsame : ∀ id, id ≠ run.runId → SameRun db db' id := fun id hne =>
      sameRun_insertEvalRun h hne
    simp only [EvalTables.insertEvalRun, if_neg hheld, Option.some.injEq] at h
    subst h
    let row : EvalRun K :=
      { runId := run.runId, workspaceId := run.workspaceId, status := .running
        caseCount := caseCount, k := run.k, aggregates := [], error := none }
    have hempty : db.getEvalRunResults run.runId = [] := hdb.results _ hheld
    have hfind : (db.runs.insertNew row).find? run.runId = some row := by
      rw [UniqueTable.find?_eq_some, UniqueTable.rows_insertNew_of_not_holds hheld]
      exact ⟨List.mem_append_right _ (List.mem_singleton_self _), rfl⟩
    refine ⟨hdb.of_same run.runId hsame ?_ fun _ => hempty, ⟨hE, row, hfind, rfl, rfl⟩, hempty, hheld⟩
    intro run' hrun'
    obtain rfl : row = run' := Option.some.inj (hfind.symm.trans hrun')
    exact ⟨⟨run, hE, rfl, rfl, fun h => (by cases h)⟩, fun h => (by cases h), fun _ => rfl,
      by simp [row]⟩

/-- The rows of a replay are stored while its run reads `running`. -/
theorem runTables_storeRows (hdb : RunTables E fns db) {run : RunRequest}
    {rows : List (EvalRow K)} (hrunning : Running E db run)
    (h : db.insertEvalRunResults run.runId rows = some db') :
    RunTables E fns db' ∧ Running E db' run := by
  obtain ⟨-, hruns, -⟩ := getEvalRunResults_insert h
  obtain ⟨hE, row, hrow, hworkspace, hstatus⟩ := hrunning
  have hrow' : db'.runs.find? run.runId = some row := by rw [hruns, hrow]
  refine ⟨hdb.of_same run.runId (fun id hne => sameRun_insertEvalRunResults h hne) ?_ fun hheld => ?_,
    hE, row, hrow', hworkspace, hstatus⟩
  · intro run' hrun'
    obtain rfl : row = run' := Option.some.inj (hrow'.symm.trans hrun')
    have hold := hdb.runs _ _ hrow
    obtain ⟨request, hrequest, hid, hw, -⟩ := hold.request
    have hnot : row.status ≠ .completed := by rw [hstatus]; decide
    exact ⟨⟨request, hrequest, hid, hw, fun hc => absurd hc hnot⟩, fun hc => absurd hc hnot,
      hold.others, hold.error⟩
  · rw [← UniqueTable.find?_eq_none, hrow'] at hheld
    cases hheld

/-- The last write of a run. -/
theorem runTables_finish (hdb : RunTables E fns db) {runId : String} {status : RunStatus}
    {aggregates : List (String × ModeMetrics K)} {error : Option String}
    (hself : ∀ old, db.runs.find? runId = some old →
      RunFits E fns { old with status := status, aggregates := aggregates, error := error }
        (db.getEvalRunResults runId)) :
    RunTables E fns (db.finishEvalRun runId status aggregates error) := by
  refine hdb.of_same runId (fun id hne => sameRun_finishEvalRun hne) ?_ fun hheld =>
    hdb.results runId fun hold => hheld (holds_finishEvalRun hold)
  intro run hrun
  obtain ⟨old, hold, rfl⟩ := find?_finishEvalRun hrun
  exact hself old hold

end

section

variable {K : Type} [Field K] [LinearOrder K] [IsStrictOrderedRing K] {queryKey : String → String}
  {fns : GainFunctions K} {settings : CaptureSettings} {E : EvalRequest → Prop}
  {db db' : EvalTables K queryKey} {call call' : EvalCall K}

/-- A call of the database keeps the runs whole, its own run where it is, and the runs of the
    others as they are. -/
theorem runAt_advance (hdb : RunTables E fns db) (hcall : call.RunAt E fns db)
    (h : call.advance fns db = some (db', call')) :
    RunTables E fns db' ∧ call'.RunAt E fns db' ∧ LeavesOthers db db' call call' := by
  by_cases hother : call.Other
  · obtain ⟨hruns, hresults, hother'⟩ := advance_of_other hother h
    have hsame : ∀ id, SameRun db db' id := SameRun.of_eq hruns hresults
    refine ⟨⟨fun id run hfind => ?_, fun id hheld => ?_⟩, hother'.runAt,
      LeavesOthers.of_eq hruns hresults (Or.inl hother'.owner)⟩
    · rw [(hsame id).row] at hfind
      rw [(hsame id).results]
      exact hdb.runs id run hfind
    · rw [hruns] at hheld
      rw [(hsame id).results]
      exact hdb.results id hheld
  cases call with
  | checkScope run caseIds =>
    simp only [EvalCall.advance] at h
    split at h <;> obtain ⟨rfl, rfl⟩ := by simpa using h
    · exact ⟨hdb, hcall, LeavesOthers.of_eq rfl rfl (Or.inl rfl)⟩
    · exact ⟨hdb, trivial, LeavesOthers.of_eq rfl rfl (Or.inl rfl)⟩
  | countCases run =>
    simp only [EvalCall.advance] at h
    split at h <;> obtain ⟨rfl, rfl⟩ := by simpa using h
    · exact ⟨hdb, trivial, LeavesOthers.of_eq rfl rfl (Or.inl rfl)⟩
    · exact ⟨hdb, hcall, LeavesOthers.of_eq rfl rfl (Or.inl rfl)⟩
  | insertRun run caseCount =>
    cases hinsert : db.insertEvalRun run.runId run.workspaceId caseCount run.k with
    | none =>
      simp only [EvalCall.advance, hinsert, Option.some.injEq, Prod.mk.injEq] at h
      obtain ⟨rfl, rfl⟩ := h
      exact ⟨hdb, trivial, LeavesOthers.of_eq rfl rfl (Or.inl rfl)⟩
    | some db₁ =>
      simp only [EvalCall.advance, hinsert, Option.some.injEq, Prod.mk.injEq] at h
      obtain ⟨rfl, rfl⟩ := h
      obtain ⟨hdb₁, hrunning, hempty, hfree⟩ := runTables_insertEvalRun hdb hcall hinsert
      refine ⟨hdb₁, ⟨hrunning, hempty⟩, fun id hheld _ => ?_, fun id hid => ?_⟩
      · exact sameRun_insertEvalRun hinsert fun hid => hfree (hid ▸ hheld)
      · exact Or.inr (Option.some.inj hid ▸ hfree)
  | fetchCases run =>
    cases hreplay : run.replay fns (db.getActiveEvalCases run.workspaceId run.caseIds run.since) with
    | none =>
      simp only [EvalCall.advance, hreplay, Option.some.injEq, Prod.mk.injEq] at h
      obtain ⟨rfl, rfl⟩ := h
      exact ⟨hdb, EvalCall.RunAt.held hcall rfl, LeavesOthers.of_eq rfl rfl (Or.inr rfl)⟩
    | some rows =>
      simp only [EvalCall.advance, hreplay, Option.some.injEq, Prod.mk.injEq] at h
      obtain ⟨rfl, rfl⟩ := h
      exact ⟨hdb, ⟨hcall.1, hcall.2, fun c hc => inScope_of_mem hc, hreplay⟩,
        LeavesOthers.of_eq rfl rfl (Or.inr rfl)⟩
  | storeRows run cases rows =>
    obtain ⟨hrunning, hempty, hscope, hreplay⟩ := hcall
    cases hinsert : db.insertEvalRunResults run.runId rows with
    | none =>
      simp only [EvalCall.advance, hinsert, Option.some.injEq, Prod.mk.injEq] at h
      obtain ⟨rfl, rfl⟩ := h
      have hat : (EvalCall.fetchCases run : EvalCall K).RunAt E fns db := ⟨hrunning, hempty⟩
      exact ⟨hdb, hat.held rfl, LeavesOthers.of_eq rfl rfl (Or.inr rfl)⟩
    | some db₁ =>
      simp only [EvalCall.advance, hinsert, Option.some.injEq, Prod.mk.injEq] at h
      obtain ⟨rfl, rfl⟩ := h
      obtain ⟨hdb₁, hrunning₁⟩ := runTables_storeRows hdb hrunning hinsert
      obtain ⟨hne, -, hrows⟩ := getEvalRunResults_insert hinsert
      rw [hempty, List.nil_append] at hrows
      exact ⟨hdb₁, ⟨hrunning₁, hrows, hscope, hreplay, hne⟩, fun id _ hid =>
        sameRun_insertEvalRunResults hinsert fun heq => hid (heq ▸ rfl), fun _ hid => Or.inl hid⟩
  | completeRun run cases rows =>
    simp only [EvalCall.advance, Option.some.injEq, Prod.mk.injEq] at h
    obtain ⟨rfl, rfl⟩ := h
    obtain ⟨⟨hE, row, hrow, hworkspace, -⟩, hrows, hreplayed⟩ := hcall
    refine ⟨runTables_finish hdb fun old hold => ?_, trivial, fun id _ hid =>
      sameRun_finishEvalRun fun heq => hid (heq ▸ rfl), fun _ hid => (by cases hid)⟩
    rw [hrows]
    obtain rfl : row = old := Option.some.inj (hrow.symm.trans hold)
    have hid : row.runId = run.runId := (UniqueTable.find?_eq_some.mp hrow).2
    exact ⟨⟨run, hE, hid.symm, hworkspace.symm, fun _ => ⟨cases, hreplayed⟩⟩, fun _ => rfl,
      fun hne => absurd rfl hne, by simp⟩
  | failRun run =>
    simp only [EvalCall.advance, Option.some.injEq, Prod.mk.injEq] at h
    obtain ⟨rfl, rfl⟩ := h
    refine ⟨runTables_finish hdb fun old hold => ?_, trivial, fun id _ hid =>
      sameRun_finishEvalRun fun heq => hid (heq ▸ rfl), fun _ hid => (by cases hid)⟩
    obtain ⟨request, hE, hid, hworkspace, -⟩ := (hdb.runs _ _ hold).request
    exact ⟨⟨request, hE, hid, hworkspace, fun hc => (by cases hc)⟩, fun hc => (by cases hc),
      fun _ => rfl, by simp⟩
  | _ => exact absurd trivial hother

/-- An interrupted run is to be marked as failed. -/
theorem runAt_interrupt (h : call.RunAt E fns db) : call.interrupt.RunAt E fns db := by
  cases call with
  | fetchCases run => exact h.held rfl
  | storeRows run cases rows => exact h.held rfl
  | completeRun run cases rows => exact h.held rfl
  | _ => trivial

/-- The runs are whole in every run of the requests. -/
theorem runs_guaranteed :
    RelyGuarantee (@evals K _ _ _ queryKey settings fns) E (RunTables E fns)
      (fun db call => call.RunAt E fns db) OwnersApart where
  symm call call' h id hid' hid := h id hid hid'
  start db request call _ hrequest hstart := by
    have hstart : startEvalRequest settings request = some call := hstart
    have hnone : call.owner = none ∧ call.RunAt E fns db := by
      cases request with
      | search search =>
        simp only [startEvalRequest, Option.ite_none_right_eq_some, Option.some.injEq] at hstart
        obtain ⟨-, rfl⟩ := hstart
        exact ⟨rfl, trivial⟩
      | feedback workspaceIds req caseId now => cases hstart; exact ⟨rfl, trivial⟩
      | purgeExpired w cutoff => cases hstart; exact ⟨rfl, trivial⟩
      | deleteEvents w includeCases => cases hstart; exact ⟨rfl, trivial⟩
      | patchCase w caseId active => cases hstart; exact ⟨rfl, trivial⟩
      | evalRun run =>
        simp only [startEvalRequest] at hstart
        split at hstart <;> cases hstart <;> exact ⟨rfl, hrequest⟩
    refine ⟨hnone.2, fun q _ id _ hid => ?_⟩
    rw [hnone.1] at hid
    cases hid
  advance db peers call db' call' hdb hcall hpeers happ hadv := by
    obtain ⟨hdb', hcall', hleaves⟩ := runAt_advance hdb hcall hadv
    refine ⟨hdb', hcall', fun q hq => ?_, fun q hq id hid hid' => ?_⟩
    · refine (hpeers q hq).same fun id hid => hleaves.same id ((hpeers q hq).held hid) ?_
      exact fun howner => happ q hq id howner hid
    · -- a run that the call has created was nobody's
      obtain howner | hfree := hleaves.owner id hid
      · exact happ q hq id howner hid'
      · exact hfree ((hpeers q hq).held hid')
  interrupt db call _ hcall :=
    ⟨runAt_interrupt hcall, fun q happ id hid => happ id (owner_interrupt hid)⟩
  lose db peers call db' call' hdb hcall hadv := by
    have hadv : call.advance fns db = some (db', call') := hadv
    cases call with
    | fetchCases run =>
      simp only [EvalCall.advance] at hadv
      split at hadv <;> obtain ⟨rfl, rfl⟩ := by simpa using hadv
      · exact hcall.held rfl
      · exact hcall.held rfl
    | storeRows run cases rows =>
      cases hinsert : db.insertEvalRunResults run.runId rows with
      | none =>
        simp only [EvalCall.advance, hinsert, Option.some.injEq, Prod.mk.injEq] at hadv
        obtain ⟨rfl, rfl⟩ := hadv
        exact hcall.held rfl
      | some db₁ =>
        simp only [EvalCall.advance, hinsert, Option.some.injEq, Prod.mk.injEq] at hadv
        obtain ⟨rfl, rfl⟩ := hadv
        show db₁.runs.Holds run.runId
        rw [(getEvalRunResults_insert hinsert).2.1]
        exact hcall.held rfl
    | completeRun run cases rows =>
      simp only [EvalCall.advance, Option.some.injEq, Prod.mk.injEq] at hadv
      obtain ⟨rfl, rfl⟩ := hadv
      exact holds_finishEvalRun (hcall.held rfl)
    | _ => trivial

/-- The report of a run: a completed one has a row for each of its cases in every mode, as its
    searches ranked them, and the means over all of its cases; another one has no aggregates,
    and an error exactly when it has failed. -/
structure WholeReport (fns : GainFunctions K) (es : List (Event EvalRequest))
    (workspaceId runId : String) (run : EvalRun K) (perCase : List (EvalRow K)) : Prop where
  request : ∃ request : RunRequest, Event.start (.evalRun request) ∈ es ∧
    request.runId = runId ∧ request.workspaceId = workspaceId ∧
    (run.status = .completed → ∃ cases : List EvalCaseRow, cases ≠ [] ∧
      (∀ c ∈ cases, InScope request c) ∧ request.replay fns cases = some perCase ∧
      ∀ mode ∈ evalModes,
        (perCase.filter fun row => row.mode = mode).length = cases.length)
  aggregates : run.status = .completed → run.aggregates = evalAggregates perCase
  bounds : ∀ mode metrics, (mode, metrics) ∈ run.aggregates →
    metrics.recallAtK ∈ Set.Icc (0 : ℚ) 1 ∧ metrics.mrr ∈ Set.Icc (0 : ℚ) 1 ∧
      metrics.ndcgAtK ∈ Set.Icc (0 : K) 1
  others : run.status ≠ .completed → run.aggregates = []
  error : run.error.isSome ↔ run.status = .failed

end

/-- A run over the case of the refund query; its searches find the document in every mode. -/
def refundRun : RunRequest where
  runId := "run_1"
  workspaceId := "w"
  caseIds := none
  since := none
  k := 5
  search _ _ := some ["doc_b", "doc_a"]
  error := "search unavailable"

def refundRunEvents : List (Event EvalRequest) :=
  refundEvents ++ .start (.evalRun refundRun) :: List.replicate 5 (.advance 2)

end Inherent
