import Inherent.Native.McpTools
import Inherent.Native.TagSearch

/-!
# The reuse boost

`reuse_boost_multiplier` and `apply_reuse_boost`
(`src/services/inh-contracts/src/inh_contracts/reuse_boost.py`), and
`SearchService._apply_reuse_boost` (`src/services/inh-public-api-svc/src/services/search.py`) on
results that carry their citation.  `math.log1p` is a parameter, `round(score, 4)` too.
-/

namespace Inherent

/-- `DEFAULT_BOOST_CAP`. -/
def defaultBoostCap : ℚ := 3 / 2

/-- `reuse_boost_multiplier`. -/
def reuseBoostMultiplier (log1p : Nat → ℚ) (reuseCount : Nat) (weight cap : ℚ) : ℚ :=
  if reuseCount ≤ 0 ∨ weight ≤ 0 then 1 else min cap (1 + weight * log1p reuseCount)

/-- `apply_reuse_boost`. -/
def reuseBoostedScore (log1p : Nat → ℚ) (score : ℚ) (reuseCount : Nat) (weight cap : ℚ) : ℚ :=
  score * reuseBoostMultiplier log1p reuseCount weight cap

/-- A `SearchResult` with its citation. -/
structure CitedHit extends SearchHit where
  documentName : String
  content : String
  citation : Citation
  deriving DecidableEq

/-- The end of the loop of `_search_weaviate`: the citation is built from the result's own
    fields. -/
def citedHit (roundScore : ℚ → ℚ) (chunk : StoredChunk) (documentName content : String)
    (score : ℚ) : CitedHit :=
  let roundedScore := roundScore score
  { chunk := chunk
    score := roundedScore
    documentName := documentName
    content := content
    citation :=
      { chunkId := chunk.chunkId
        documentId := chunk.documentId
        documentName := documentName
        content := content
        score := roundedScore } }

/-- `settings.workspace_reuse_boost.get(workspace_id, 0.0)`. -/
def reuseWeight (workspaceReuseBoost : String → Option ℚ) (workspaceId : String) : ℚ :=
  (workspaceReuseBoost workspaceId).getD 0

/-- `_apply_reuse_boost`; `model_copy` updates the score only, and the sort is stable. -/
def applyReuseBoostCited (log1p : Nat → ℚ) (roundScore : ℚ → ℚ)
    (workspaceReuseBoost : String → Option ℚ) (results : List CitedHit) (workspaceId : String) :
    List CitedHit :=
  let weight := reuseWeight workspaceReuseBoost workspaceId
  if weight ≤ 0 then results
  else
    (results.map fun r =>
      { r with
        score := roundScore
          (reuseBoostedScore log1p r.score r.chunk.reuseCount weight defaultBoostCap) }).mergeSort
      fun a b => b.score ≤ a.score

end Inherent
