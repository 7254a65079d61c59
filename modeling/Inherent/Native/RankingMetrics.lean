import Inherent.ForStd.FirstOccurrence

/-!
# Ranking metrics

The metrics of `src/services/inh-contracts/src/inh_contracts/ranking_metrics.py` and the row of
`_score_case_mode` (`src/services/inh-public-api-svc/src/services/eval_runner.py`).  The values
are those of an ordered field, and `2.0 ** grade` and `math.log2` are functions on it.
-/

namespace Inherent

/-- `_dedupe_preserve_order` behind the documents that it has seen. -/
def dedupeLoop (seen : Finset String) : List String → List String
  | [] => []
  | docId :: ranked =>
    if docId ∈ seen then dedupeLoop seen ranked
    else docId :: dedupeLoop (insert docId seen) ranked

/-- `_dedupe_preserve_order`. -/
def dedupePreserveOrder (ranked : List String) : List String := dedupeLoop ∅ ranked

theorem dedupeLoop_eq (seen : Finset String) (ranked : List String) :
    dedupeLoop seen ranked = (ranked.filter (· ∉ seen)).eraseDups := by
  induction ranked generalizing seen with
  | nil => rfl
  | cons docId ranked ih =>
    unfold dedupeLoop
    by_cases hseen : docId ∈ seen
    · rw [if_pos hseen, List.filter_cons_of_neg (by simpa using hseen), ih]
    · rw [if_neg hseen, List.filter_cons_of_pos (by simpa using hseen), List.eraseDups_cons, ih,
        List.filter_filter]
      congr 3
      funext other
      simp [Finset.mem_insert, Bool.beq_eq_decide_eq]

theorem dedupePreserveOrder_eq (ranked : List String) :
    dedupePreserveOrder ranked = ranked.eraseDups := by
  simp [dedupePreserveOrder, dedupeLoop_eq]

theorem nodup_dedupePreserveOrder (ranked : List String) :
    (dedupePreserveOrder ranked).Nodup := by
  rw [dedupePreserveOrder_eq]
  exact FirstOccurrence.nodup_eraseDups ranked

/-- `_dedupe_preserve_order(ranked)[:k]` for a positive `k`. -/
def topK (ranked : List String) (k : ℤ) : List String := (dedupePreserveOrder ranked).take k.toNat

/-- `recall_at_k`. -/
def recallAtK (rankedDocIds relevantDocIds : List String) (k : ℤ) : ℚ :=
  let relevant := relevantDocIds.toFinset
  if relevant = ∅ ∨ k ≤ 0 then 0
  else
    let hits := (topK rankedDocIds k).countP (· ∈ relevant)
    hits / relevant.card

/-- The loop of `mrr` from a rank on. -/
def mrrLoop (relevant : Finset String) : Nat → List String → ℚ
  | _, [] => 0
  | rank, docId :: ranked =>
    if docId ∈ relevant then 1 / rank else mrrLoop relevant (rank + 1) ranked

/-- `mrr`. -/
def mrr (rankedDocIds relevantDocIds : List String) : ℚ :=
  let relevant := relevantDocIds.toFinset
  if relevant = ∅ then 0 else mrrLoop relevant 1 (dedupePreserveOrder rankedDocIds)

/-- `hit_at_k`. -/
def hitAtK (rankedDocIds relevantDocIds : List String) (k : ℤ) : ℚ :=
  let relevant := relevantDocIds.toFinset
  if relevant = ∅ ∨ k ≤ 0 then 0
  else if (topK rankedDocIds k).any (· ∈ relevant) then 1 else 0

/-- `2.0 ** grade` and `math.log2` of a natural number, as far as the metrics rely on them: the
    discount `1 / log2 (rank + 1)` of a rank is positive and does not grow. -/
structure GainFunctions (K : Type) [Field K] [LinearOrder K] [IsStrictOrderedRing K] where
  pow2 : K → K
  log2 : Nat → K
  pow2_zero : pow2 0 = 1
  pow2_mono : Monotone pow2
  log2_pos : ∀ n, 2 ≤ n → 0 < log2 n
  log2_mono : ∀ m n, 2 ≤ m → m ≤ n → log2 m ≤ log2 n

/-- A map of grades by document: its items, with distinct keys. -/
structure Grades (K : Type) where
  items : List (String × K)
  nodup : (items.map Prod.fst).Nodup

/-- `relevance_by_doc_id.values()`. -/
def Grades.values {K : Type} (grades : Grades K) : List K := grades.items.map Prod.snd

section

variable {K : Type} [Field K] [LinearOrder K] [IsStrictOrderedRing K]

/-- `relevance_by_doc_id.get(doc_id, 0.0)`. -/
def Grades.get (grades : Grades K) (docId : String) : K := (grades.items.lookup docId).getD 0

/-- The loop of `_dcg` from a rank on. -/
def dcgLoop (fns : GainFunctions K) : Nat → K → List K → K
  | _, total, [] => total
  | rank, total, grade :: grades =>
    dcgLoop fns (rank + 1)
      (if grade > 0 then total + (fns.pow2 grade - 1) / fns.log2 (rank + 1) else total) grades

/-- `_dcg`. -/
def dcg (fns : GainFunctions K) (grades : List K) : K := dcgLoop fns 1 0 grades

/-- `dcg` in `ndcg_at_k`. -/
def dcgAtK (fns : GainFunctions K) (ranked : List String) (grades : Grades K) (k : ℤ) : K :=
  dcg fns ((topK ranked k).map grades.get)

/-- `ideal_grades` in `ndcg_at_k`. -/
def idealGrades (grades : Grades K) (k : ℤ) : List K :=
  ((grades.values.filter (· > 0)).mergeSort fun a b => b ≤ a).take k.toNat

/-- `idcg` in `ndcg_at_k`. -/
def idcgAtK (fns : GainFunctions K) (grades : Grades K) (k : ℤ) : K :=
  dcg fns (idealGrades grades k)

/-- `ndcg_at_k`. -/
def ndcgAtK (fns : GainFunctions K) (ranked : List String) (grades : Grades K) (k : ℤ) : K :=
  if k ≤ 0 then 0
  else if idcgAtK fns grades k = 0 then 0
  else dcgAtK fns ranked grades k / idcgAtK fns grades k

/-- A case of an evaluation. -/
structure EvalCase (K : Type) where
  caseId : String
  queryText : String
  expectedDocIds : List String
  relevanceGrade : K

/-- The row of a case in one search mode. -/
structure EvalRow (K : Type) where
  caseId : String
  queryText : String
  mode : String
  recallAtK : ℚ
  mrr : ℚ
  ndcgAtK : K

/-- `{doc: grade for doc in expected}`. -/
def gradesOf (expected : List String) (grade : K) : Grades K where
  items := (dedupePreserveOrder expected).map fun doc => (doc, grade)
  nodup := by
    rw [List.map_map]
    exact (List.map_id _).symm ▸ nodup_dedupePreserveOrder expected

/-- `_score_case_mode` behind its search, for the documents of the results. -/
def scoreCaseMode (fns : GainFunctions K) (evalCase : EvalCase K) (mode : String) (k : ℤ)
    (ranked : List String) : EvalRow K where
  caseId := evalCase.caseId
  queryText := evalCase.queryText
  mode := mode
  recallAtK := recallAtK ranked evalCase.expectedDocIds k
  mrr := mrr ranked evalCase.expectedDocIds
  ndcgAtK := ndcgAtK fns ranked (gradesOf evalCase.expectedDocIds evalCase.relevanceGrade) k

end

end Inherent
