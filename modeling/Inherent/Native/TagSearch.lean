import Inherent.Native.VectorTenant

/-!
# Search with tag filters

`SearchService.search` (`src/services/inh-public-api-svc/src/services/search.py`): the
check of the tag filters, the `where` clause, what Weaviate serves for it, and the filters,
the boost and the truncation that follow.  `tags` is a `TEXT_ARRAY` property with the
schema's word tokenization, and `ContainsAny` is a token match.
-/

namespace Inherent

/-- A tag as it is stored and as a filter names it. -/
def tagText (field value : String) : String := field ++ "=" ++ value

/-- What search reads of a chunk's object; the tags are `field=value` strings. -/
structure StoredChunk where
  chunkId : String
  documentId : String
  tags : List (String × String)
  reuseCount : Nat
deriving DecidableEq, Repr

/-- The `tags` property. -/
def StoredChunk.tagTexts (chunk : StoredChunk) : List String :=
  chunk.tags.map fun tag => tagText tag.1 tag.2

/-- A filter's value: one, or a list of alternatives. -/
inductive FilterValue where
  | one (value : String)
  | many (values : List String)
deriving DecidableEq, Repr

/-- `value if isinstance(value, list) else [value]`. -/
def FilterValue.values : FilterValue → List String
  | one value => [value]
  | many values => values

/-- The items of `filters`. -/
abbrev TagFilters := List (String × FilterValue)

/-- The fields of `SearchRequest` that narrow its results. -/
structure SearchRequest where
  limit : Nat
  minScore : ℚ
  documentIds : Option (List String)
  filters : Option TagFilters
  limit_mem : 1 ≤ limit ∧ limit ≤ 100
deriving DecidableEq

/-- The settings that search reads. -/
structure SearchSettings where
  enableDiversification : Bool
  diversificationOverFetchMultiplier : Nat
  /-- `round(score, 4)`. -/
  roundScore : ℚ → ℚ
  /-- The rounded score after the workspace's reuse boost, when it has one. -/
  reuseBoost : Option (ℚ → Nat → ℚ)

/-! ## The tag filters -/

/-- `TagFilterError`. -/
inductive TagFilterError where
  | noPack
  | unknownFields (unknown declared : List String)
deriving DecidableEq, Repr

/-- `_validate_tag_filters`, for a workspace whose pack declares the fields. -/
def validateTagFilters (packFields : Option (List String)) (filters : Option TagFilters) :
    Except TagFilterError Unit :=
  let given := filters.getD []
  if given = [] then .ok ()
  else
    match packFields with
    | none => .error .noPack
    | some declared =>
      let unknown := (given.map Prod.fst).filter fun field => field ∉ declared
      if unknown ≠ [] then
        .error (.unknownFields (unknown.mergeSort (· ≤ ·)) (declared.mergeSort (· ≤ ·)))
      else .ok ()

/-- The properties that the `where` clause filters on. -/
inductive WherePath where
  | documentId
  | tags
deriving DecidableEq, Repr

/-- A `ContainsAny` operand. -/
structure WhereOperand where
  path : WherePath
  values : List String
deriving DecidableEq, Repr

/-- `_tag_filter_operands`. -/
def tagFilterOperands (filters : Option TagFilters) : List WhereOperand :=
  (filters.getD []).map fun item =>
    { path := .tags, values := item.2.values.map (tagText item.1) }

/-- The operands of `_build_graphql`, which are all required. -/
def whereOperands (request : SearchRequest) : List WhereOperand :=
  let documentIds := request.documentIds.getD []
  (if documentIds = [] then [] else [{ path := .documentId, values := documentIds }]) ++
    tagFilterOperands request.filters

/-- The values of a property of a chunk. -/
def StoredChunk.property (chunk : StoredChunk) : WherePath → List String
  | .documentId => [chunk.documentId]
  | .tags => chunk.tagTexts

/-- `ContainsAny`: some value has a word of some stored string. -/
def WhereOperand.Holds (tokenization : WordTokenization) (operand : WhereOperand)
    (chunk : StoredChunk) : Prop :=
  ∃ value ∈ operand.values, ∃ stored ∈ chunk.property operand.path,
    tokenization.Meets stored.toList value.toList

instance (tokenization : WordTokenization) (operand : WhereOperand) (chunk : StoredChunk) :
    Decidable (operand.Holds tokenization chunk) :=
  inferInstanceAs (Decidable (∃ value ∈ operand.values,
    ∃ stored ∈ chunk.property operand.path, _))

/-! ## The query and its results -/

/-- `fetch_limit` of `_build_graphql`. -/
def fetchLimit (settings : SearchSettings) (request : SearchRequest) : Nat :=
  let needsOverFetch := request.minScore > 0 ∨ request.documentIds.getD [] ≠ []
  let limit := if needsOverFetch then min 100 (request.limit * 3) else request.limit
  if settings.enableDiversification then
    max limit (min 100 (request.limit * settings.diversificationOverFetchMultiplier))
  else limit

/-- The `_additional` values of a chunk in an answer, `0` where there is none. -/
structure Relevance where
  score : ℚ
  certainty : ℚ
  distance : ℚ
deriving DecidableEq, Repr

/-- The score that search ranks by. -/
def Relevance.resolve (r : Relevance) : ℚ :=
  if r.score > 0 then r.score
  else if r.certainty > 0 then r.certainty
  else if r.distance > 0 then max 0 (1 - r.distance / 2)
  else 0

/-- What the query comes to: the ranked chunks of the tenant, a collection or a tenant that
    is not there yet, or an error that search raises. -/
inductive QueryOutcome where
  | ranked (chunks : List (StoredChunk × Relevance))
  | notReady
  | fails

/-- A `SearchResult`: the chunk and its score. -/
structure SearchHit where
  chunk : StoredChunk
  score : ℚ
deriving DecidableEq

/-- What Weaviate serves: the best ranked chunks that the `where` clause admits. -/
def served (tokenization : WordTokenization) (settings : SearchSettings)
    (request : SearchRequest) (ranked : List (StoredChunk × Relevance)) :
    List (StoredChunk × Relevance) :=
  (ranked.filter fun item =>
    ∀ operand ∈ whereOperands request, operand.Holds tokenization item.1).take
      (fetchLimit settings request)

/-- The loop of `_search_weaviate` over the served chunks: the `min_score` and the exact
    document id filters. -/
def postFilter (settings : SearchSettings) (request : SearchRequest)
    (chunks : List (StoredChunk × Relevance)) : List SearchHit :=
  chunks.filterMap fun item =>
    let score := item.2.resolve
    if score < request.minScore then none
    else if request.documentIds.getD [] ≠ [] ∧
        item.1.documentId ∉ request.documentIds.getD [] then none
    else some { chunk := item.1, score := settings.roundScore score }

/-- `_apply_reuse_boost`; the sort is stable. -/
def applyReuseBoost (settings : SearchSettings) (hits : List SearchHit) : List SearchHit :=
  match settings.reuseBoost with
  | none => hits
  | some boost =>
    (hits.map fun hit => { hit with score := boost hit.score hit.chunk.reuseCount }).mergeSort
      fun a b => b.score ≤ a.score

/-- The buckets of `_diversify_by_document`, in the order of their first hits. -/
def documentBuckets (hits : List SearchHit) : List (List SearchHit) :=
  (hits.map (·.chunk.documentId)).eraseDups.map fun documentId =>
    hits.filter fun hit => hit.chunk.documentId = documentId

/-- One round of the `while` loop: a hit of each document, as long as there is room. -/
def diversifyRound : Nat → List (List SearchHit) → List SearchHit × List (List SearchHit)
  | _, [] => ([], [])
  | 0, buckets => ([], buckets)
  | room, [] :: buckets =>
    let (taken, rest) := diversifyRound room buckets
    (taken, [] :: rest)
  | room + 1, (hit :: hits) :: buckets =>
    let (taken, rest) := diversifyRound room buckets
    (hit :: taken, hits :: rest)

/-- The `while` loop.  Every round takes a hit, so as many rounds as there are hits reach
    the limit or the end. -/
def diversifyLoop : Nat → Nat → List (List SearchHit) → List SearchHit
  | 0, _, _ => []
  | rounds + 1, room, buckets =>
    if room = 0 ∨ buckets.all List.isEmpty then []
    else
      let (taken, rest) := diversifyRound room buckets
      taken ++ diversifyLoop rounds (room - taken.length) rest

/-- `_diversify_by_document`. -/
def diversifyByDocument (hits : List SearchHit) (limit : Nat) : List SearchHit :=
  if limit = 0 ∨ hits = [] then []
  else if hits.length ≤ limit then hits
  else diversifyLoop hits.length limit (documentBuckets hits)

/-- `_search_weaviate`, `none` when it raises. -/
def searchWeaviate (tokenization : WordTokenization) (settings : SearchSettings)
    (request : SearchRequest) : QueryOutcome → Option (List SearchHit)
  | .fails => none
  | .notReady => some []
  | .ranked chunks =>
    let hits := applyReuseBoost settings
      (postFilter settings request (served tokenization settings request chunks))
    some (if settings.enableDiversification then diversifyByDocument hits request.limit
      else hits.take request.limit)

/-- What `search` raises. -/
inductive SearchError where
  | tagFilter (e : TagFilterError)
  | weaviate
deriving DecidableEq, Repr

/-- `search`. -/
def search (tokenization : WordTokenization) (settings : SearchSettings)
    (packFields : Option (List String)) (request : SearchRequest) (outcome : QueryOutcome) :
    Except SearchError (List SearchHit) :=
  match validateTagFilters packFields request.filters with
  | .error e => .error (.tagFilter e)
  | .ok () =>
    match searchWeaviate tokenization settings request outcome with
    | none => .error .weaviate
    | some hits => .ok hits

end Inherent
