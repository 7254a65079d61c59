import Inherent.ForStd.StatefulProgram
import Inherent.Native.SearchQuery

/-!
# The quality gate of a search

`evaluate` (`src/services/inh-public-api-svc/src/services/quality_gate.py`), and the fallback
that the search endpoint runs on its verdict (`src/services/inh-public-api-svc/src/api/v1/search.py`).
The state of a gated search is the list of the requests that it has retrieved.  `round(ms, 2)`
is a parameter.
-/

namespace Inherent

/-- The verdicts of a `QualityVerdict`. -/
inductive Verdict where
  | sufficient
  | insufficientEvidence
  | lowConfidence
  deriving DecidableEq, Repr

/-- `QualityVerdict`. -/
structure QualityVerdict where
  verdict : Verdict
  reasonCode : String
  confidence : ℚ
  deriving DecidableEq, Repr

/-- `TOP_SCORE_THRESHOLD`. -/
def topScoreThreshold : ℚ := 1 / 2

/-- `MIN_SUFFICIENT_RESULTS`. -/
def minSufficientResults : Nat := 2

/-- `_top_score`. -/
def topScore (results : List SearchHit) : ℚ := (results.map SearchHit.score).max?.getD 0

/-- `evaluate`; it does not read the request. -/
def evaluate (results : List SearchHit) : QualityVerdict :=
  let top := topScore results
  let confidence := max 0 (min 1 top)
  if results = [] then
    { verdict := .insufficientEvidence, reasonCode := "no_results", confidence := 0 }
  else if top < topScoreThreshold then
    { verdict := .lowConfidence, reasonCode := "top_score_below_threshold"
      confidence := confidence }
  else if results.length < minSufficientResults then
    { verdict := .insufficientEvidence, reasonCode := "low_result_count"
      confidence := confidence }
  else { verdict := .sufficient, reasonCode := "ok", confidence := confidence }

/-! ## The fallback -/

variable {F : Type}

/-- `min(max(limit * 2, limit), 100)`. -/
def broadenedLimit (limit : Nat) : Nat := min (max (limit * 2) limit) 100

theorem broadenedLimit_mem {limit : Nat} (h : 1 ≤ limit ∧ limit ≤ 100) :
    1 ≤ broadenedLimit limit ∧ broadenedLimit limit ≤ 100 := by
  unfold broadenedLimit
  omega

/-- `_build_fallback_request`. -/
def buildFallbackRequest (request : QueryRequest F) (verdict : QualityVerdict) :
    Option (QueryRequest F) :=
  match verdict.verdict with
  | .lowConfidence =>
    if request.searchMode = .keyword then none
    else some { request with searchMode := .keyword }
  | .insufficientEvidence =>
    if request.minScore ≤ 0 ∧ broadenedLimit request.limit = request.limit then none
    else some
      { request with
        minScore := 0
        limit := broadenedLimit request.limit
        limit_mem := broadenedLimit_mem request.limit_mem }
  | .sufficient => none

/-- `_fallback_strategy_name`. -/
def fallbackStrategyName (verdict : QualityVerdict) : String :=
  if verdict.verdict = .lowConfidence then "keyword_retry" else "broadened_query"

/-- What the gate sets of a `SearchResponse`. -/
structure GatedResponse where
  results : List SearchHit
  totalResults : Nat
  processingTimeMs : ℚ
  qualityVerdict : Option QualityVerdict := none
  performedFallback : Bool := false
  fallbackStrategy : Option String := none
  deriving DecidableEq

variable {ε : Type}

/-- A `retrieve` call; the answers may differ from call to call. -/
def retrieve (answer : Nat → QueryRequest F → Except ε (List SearchHit × ℚ))
    (request : QueryRequest F) :
    ExceptT ε (StateM (List (QueryRequest F))) (List SearchHit × ℚ) := do
  let log ← get
  set (log ++ [request])
  match answer log.length request with
  | .ok page => pure page
  | .error e => throw e

/-- The part of `_apply_quality_gate_and_fallback` behind the retry. -/
def afterFallback (roundMs : ℚ → ℚ) (response : GatedResponse) (strategy : String)
    (page : List SearchHit × ℚ) : GatedResponse where
  results := page.1
  totalResults := page.1.length
  processingTimeMs := roundMs (response.processingTimeMs + page.2)
  qualityVerdict := some (evaluate page.1)
  performedFallback := true
  fallbackStrategy := some strategy

/-- `_apply_quality_gate_and_fallback`; a retry that raises leaves the response. -/
def applyQualityGateAndFallback (roundMs : ℚ → ℚ)
    (answer : Nat → QueryRequest F → Except ε (List SearchHit × ℚ)) (request : QueryRequest F)
    (response : GatedResponse) : ExceptT ε (StateM (List (QueryRequest F))) GatedResponse :=
  let verdict := evaluate response.results
  let response := { response with qualityVerdict := some verdict }
  if verdict.verdict = .sufficient then pure response
  else
    match buildFallbackRequest request verdict with
    | none => pure response
    | some fallbackRequest =>
      tryCatch
        (do
          let page ← retrieve answer fallbackRequest
          return afterFallback roundMs response (fallbackStrategyName verdict) page)
        fun _ => pure response

/-- The search endpoint up to the gate's response. -/
def gatedSearch (roundMs : ℚ → ℚ)
    (answer : Nat → QueryRequest F → Except ε (List SearchHit × ℚ)) (request : QueryRequest F) :
    ExceptT ε (StateM (List (QueryRequest F))) GatedResponse := do
  let page ← retrieve answer request
  applyQualityGateAndFallback roundMs answer request
    { results := page.1, totalResults := page.1.length, processingTimeMs := roundMs page.2 }

end Inherent
