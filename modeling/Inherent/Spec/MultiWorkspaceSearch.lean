import Inherent.ForStd.StableSort
import Inherent.Native.MultiWorkspaceSearch

/-!
# The merge of a search across workspaces

Whatever order the searches complete in, their pages are gathered in the order of the workspaces
(`Gather.gather_ok`), and the sort by the merge key forgets that order where the key tells the
hits apart.  Without diversification a workspace's page is the head of its sorted candidates, so
that the cut before the merge loses nothing (`StableSort.take_mergeSort_flatMap_take`).
-/

namespace Inherent

open StableSort

variable {answer : String → Except WorkspaceError (List SearchHit)} {workspaceIds : List String}
  {limit : Nat}

/-- What a search contributes; one that raises contributes nothing. -/
def resultsOf : Except WorkspaceError (List SearchHit) → List SearchHit
  | .ok hits => hits
  | .error _ => []

/-- The results of the workspaces whose searches succeed. -/
def unionResults (answer : String → Except WorkspaceError (List SearchHit))
    (workspaceIds : List String) : List SearchHit :=
  workspaceIds.flatMap fun workspaceId => resultsOf (answer workspaceId)

/-- No search meets a collection of another embedding model. -/
def NoMismatch (answer : String → Except WorkspaceError (List SearchHit))
    (workspaceIds : List String) : Prop :=
  ∀ workspaceId ∈ workspaceIds, ∀ e, answer workspaceId ≠ .error (.identity e)

theorem searchOne_eq_ok {result : Except WorkspaceError (List SearchHit)}
    (h : ∀ e, result ≠ .error (.identity e)) : searchOne result = .ok (resultsOf result) := by
  cases result with
  | ok hits => rfl
  | error e =>
    cases e with
    | identity e => exact absurd rfl (h e)
    | search e => rfl

/-! ## The merge -/

/-- Without a mismatch the searches give the union, in every order of completion. -/
theorem searchWorkspacesConcurrently_ok {order : List Nat}
    (horder : order.Perm (List.range workspaceIds.length))
    (hmismatch : NoMismatch answer workspaceIds) :
    searchWorkspacesConcurrently answer workspaceIds order =
      some (.ok (unionResults answer workspaceIds)) := by
  have htask : ∀ i < workspaceIds.length,
      (workspaceIds.map fun ws => searchOne (answer ws))[i]?.getD (.ok []) =
        .ok ((workspaceIds.map fun ws => resultsOf (answer ws))[i]?.getD []) := by
    intro i hi
    simp only [List.getElem?_map, List.getElem?_eq_getElem hi, Option.map_some, Option.getD_some]
    exact searchOne_eq_ok (hmismatch _ (List.getElem_mem hi))
  unfold searchWorkspacesConcurrently
  simp only [List.length_map]
  rw [Gather.gather_ok horder htask]
  have hrange : ((List.range workspaceIds.length).map fun i =>
      (workspaceIds.map fun ws => resultsOf (answer ws))[i]?.getD []) =
      workspaceIds.map fun ws => resultsOf (answer ws) := by
    apply List.ext_getElem?
    intro i
    rcases Nat.lt_or_ge i workspaceIds.length with hi | hi
    · simp [hi]
    · simp [hi]
  rw [hrange, unionResults, List.flatMap_def]
  rfl

/-- A mismatch fails the search as a whole, in every order of completion. -/
theorem retrieveMulti_mismatch {order : List Nat}
    (horder : order.Perm (List.range workspaceIds.length)) {workspaceId : String}
    (hmem : workspaceId ∈ workspaceIds) {e : EmbeddingIdentityError}
    (hmismatch : answer workspaceId = .error (.identity e)) :
    ∃ e', retrieveMulti answer workspaceIds limit order = some (.error e') := by
  obtain ⟨i, hi, rfl⟩ := List.getElem_of_mem hmem
  have htask : (workspaceIds.map fun ws => searchOne (answer ws))[i]?.getD (.ok []) =
      .error e := by
    simp only [List.getElem?_map, List.getElem?_eq_getElem hi, Option.map_some, Option.getD_some,
      hmismatch, searchOne]
  obtain ⟨j, hj, e', hj', hgather⟩ :=
    Gather.gather_error (fun i =>
      (workspaceIds.map fun ws => searchOne (answer ws))[i]?.getD (.ok [])) horder hi htask
  refine ⟨e', ?_⟩
  unfold retrieveMulti searchWorkspacesConcurrently
  simp only [List.length_map]
  rw [hgather]
  rfl

theorem retrieveMulti_of_not_noMismatch {order : List Nat}
    (horder : order.Perm (List.range workspaceIds.length))
    (hmismatch : ¬ NoMismatch answer workspaceIds) :
    ∃ e, retrieveMulti answer workspaceIds limit order = some (.error e) := by
  simp only [NoMismatch, not_forall, ne_eq, not_not] at hmismatch
  obtain ⟨workspaceId, hmem, e, he⟩ := hmismatch
  exact retrieveMulti_mismatch horder hmem he

theorem retrieveMulti_ok {order : List Nat}
    (horder : order.Perm (List.range workspaceIds.length))
    (hmismatch : NoMismatch answer workspaceIds) :
    retrieveMulti answer workspaceIds limit order =
      some (.ok (((unionResults answer workspaceIds).mergeSort
        fun a b => mergeKey a ≤ mergeKey b).take limit)) := by
  rw [retrieveMulti, searchWorkspacesConcurrently_ok horder hmismatch]
  rfl

theorem score_le_of_mergeKey_le {a b : SearchHit} (h : mergeKey a ≤ mergeKey b) :
    b.score ≤ a.score := by
  rcases (Prod.Lex.toLex_le_toLex.mp h) with hlt | ⟨heq, -⟩
  · exact (neg_lt_neg_iff.mp hlt).le
  · exact (neg_inj.mp heq).ge

theorem mergeKey_le_of_score_lt {a b : SearchHit} (h : b.score < a.score) :
    mergeKey a ≤ mergeKey b :=
  Prod.Lex.toLex_le_toLex.mpr (Or.inl (neg_lt_neg_iff.mpr h))

theorem score_eq_of_mergeKey_eq {a b : SearchHit} (h : mergeKey a = mergeKey b) :
    a.score = b.score :=
  le_antisymm (score_le_of_mergeKey_le h.ge) (score_le_of_mergeKey_le h.le)

theorem nodup_map_mergeKey {hits : List SearchHit}
    (hscores : (hits.map SearchHit.score).Nodup) : (hits.map mergeKey).Nodup := by
  apply List.Nodup.of_map fun key => -(ofLex key).1
  rw [List.map_map]
  convert hscores using 2
  funext hit
  exact neg_neg hit.score

/-! ## Early truncation -/

/-- What the search of a workspace ranks before it cuts its page. -/
def candidates (tokenization : WordTokenization) (backend : SearchBackend) (hasVector : Bool)
    (request : SearchRequest) (workspaceId : String) : List SearchHit :=
  match workspaceSearch tokenization backend hasVector request workspaceId,
      backend.outcome workspaceId with
  | .ok _, .ranked chunks =>
    applyReuseBoost (backend.settings workspaceId)
      (postFilter (backend.settings workspaceId) request
        (served tokenization (backend.settings workspaceId) request chunks))
  | _, _ => []

/-- Without diversification a page is the head of the candidates. -/
theorem resultsOf_workspaceSearch {tokenization : WordTokenization} {backend : SearchBackend}
    {hasVector : Bool} {request : SearchRequest} {workspaceId : String}
    (hoff : (backend.settings workspaceId).enableDiversification = false) :
    resultsOf (workspaceSearch tokenization backend hasVector request workspaceId) =
      (candidates tokenization backend hasVector request workspaceId).take request.limit := by
  unfold candidates
  cases hsearch : workspaceSearch tokenization backend hasVector request workspaceId with
  | error e => rw [resultsOf, List.take_nil]
  | ok hits =>
    unfold workspaceSearch at hsearch
    split at hsearch
    · cases hsearch
    · split at hsearch
      · cases hsearch
      · cases houtcome : backend.outcome workspaceId with
        | fails =>
          rw [houtcome] at hsearch
          cases hsearch
        | notReady =>
          rw [houtcome] at hsearch
          cases hsearch
          rw [resultsOf, List.take_nil]
        | ranked chunks =>
          rw [houtcome] at hsearch
          simp only [searchWeaviate, hoff, Bool.false_eq_true, if_false, Except.ok.injEq] at hsearch
          exact hsearch.symm

/-- Sorted candidates with distinct scores are sorted by the merge key. -/
theorem pairwise_mergeKey {hits : List SearchHit}
    (hsorted : hits.Pairwise fun a b => b.score ≤ a.score)
    (hscores : (hits.map SearchHit.score).Nodup) :
    hits.Pairwise fun a b => mergeKey a ≤ mergeKey b := by
  rw [List.Nodup, List.pairwise_map] at hscores
  exact (hsorted.and hscores).imp fun h => mergeKey_le_of_score_lt (lt_of_le_of_ne h.1 h.2.symm)

/-! ## The page -/

/-- A page merged from the results of the workspaces that answer. -/
structure MergedPage (answer : String → Except WorkspaceError (List SearchHit))
    (workspaceIds : List String) (limit : Nat) (page : List SearchHit) : Prop where
  /-- The first `limit` elements of the union by score. -/
  top : ∃ ranked : List SearchHit, ranked.Perm (unionResults answer workspaceIds) ∧
    (ranked.Pairwise fun a b => b.score ≤ a.score) ∧
    (ranked.Pairwise fun a b => mergeKey a ≤ mergeKey b) ∧ page = ranked.take limit
  /-- Each hit is a result of a workspace that answers. -/
  origin : ∀ hit ∈ page, ∃ workspaceId ∈ workspaceIds, ∃ hits,
    answer workspaceId = .ok hits ∧ hit ∈ hits

theorem mergedPage_take (answer : String → Except WorkspaceError (List SearchHit))
    (workspaceIds : List String) (limit : Nat) :
    MergedPage answer workspaceIds limit (((unionResults answer workspaceIds).mergeSort
      fun a b => mergeKey a ≤ mergeKey b).take limit) where
  top := by
    have hsorted := pairwise_mergeSort_le mergeKey (unionResults answer workspaceIds)
    exact ⟨_, List.mergeSort_perm _ _, hsorted.imp score_le_of_mergeKey_le, hsorted, rfl⟩
  origin := by
    intro hit hmem
    obtain ⟨workspaceId, hworkspace, hhit⟩ :=
      List.mem_flatMap.mp (List.mem_mergeSort.mp (List.mem_of_mem_take hmem))
    cases hanswer : answer workspaceId with
    | ok hits =>
      rw [hanswer] at hhit
      exact ⟨workspaceId, hworkspace, hits, hanswer, hhit⟩
    | error e =>
      rw [hanswer] at hhit
      cases hhit

/-- The endpoint merges the results of the user's workspaces. -/
theorem mergedPage_searchAllWorkspaces {ObjectId : Type} [DecidableEq ObjectId]
    {codec : ObjectIdCodec ObjectId} {state : AccessState codec} {lookups : Lookups}
    {userId : String} {order : List Nat}
    (horder : order.Perm (List.range (state.getUserWorkspaceIds lookups userId).length))
    {page : List SearchHit}
    (hpage : searchAllWorkspaces state lookups userId answer limit order = some (.ok page)) :
    MergedPage answer (state.getUserWorkspaceIds lookups userId) limit page := by
  unfold searchAllWorkspaces at hpage
  by_cases hnone : state.getUserWorkspaceIds lookups userId = []
  · simp only [if_pos hnone, Option.some.injEq, Except.ok.injEq] at hpage
    rw [hnone, ← hpage]
    simpa [unionResults] using mergedPage_take answer [] limit
  · simp only [if_neg hnone] at hpage
    by_cases hmismatch : NoMismatch answer (state.getUserWorkspaceIds lookups userId)
    · rw [retrieveMulti_ok horder hmismatch, Option.some.injEq, Except.ok.injEq] at hpage
      exact hpage ▸ mergedPage_take _ _ _
    · obtain ⟨e, he⟩ := retrieveMulti_of_not_noMismatch horder hmismatch
      rw [he] at hpage
      cases hpage

/-- A search across workspaces is a merge of their pages, if none of them meets a collection of
    another embedding model; then it fails as a whole. -/
theorem retrieveMulti_merge {ObjectId : Type} [DecidableEq ObjectId]
    {codec : ObjectIdCodec ObjectId} (state : AccessState codec) (lookups : Lookups)
    (userId : String) (tokenization : WordTokenization) (backend : SearchBackend)
    (hasVector : Bool) (request : SearchRequest) (workspaceIds : List String) (order : List Nat)
    (horder : order.Perm (List.range workspaceIds.length)) :
    let answer := workspaceSearch tokenization backend hasVector request
    (¬ NoMismatch answer workspaceIds →
      ∃ e, retrieveMulti answer workspaceIds request.limit order = some (.error e)) ∧
    (NoMismatch answer workspaceIds →
      ∃ page, retrieveMulti answer workspaceIds request.limit order = some (.ok page) ∧
        MergedPage answer workspaceIds request.limit page ∧
        (((unionResults answer workspaceIds).map SearchHit.score).Nodup →
          ∀ workspaceIds' order', workspaceIds'.Perm workspaceIds →
            order'.Perm (List.range workspaceIds'.length) →
            retrieveMulti answer workspaceIds' request.limit order' = some (.ok page)) ∧
        ((∀ workspaceId ∈ workspaceIds,
            (backend.settings workspaceId).enableDiversification = false ∧
            (candidates tokenization backend hasVector request workspaceId).Pairwise
              fun a b => b.score ≤ a.score) →
          let all := workspaceIds.flatMap (candidates tokenization backend hasVector request)
          (all.map SearchHit.score).Nodup →
            page = (all.mergeSort fun a b => mergeKey a ≤ mergeKey b).take request.limit)) ∧
    (∀ order' page, order'.Perm (List.range (state.getUserWorkspaceIds lookups userId).length) →
      searchAllWorkspaces state lookups userId answer request.limit order' = some (.ok page) →
      MergedPage answer (state.getUserWorkspaceIds lookups userId) request.limit page) := by
  intro answer
  refine ⟨retrieveMulti_of_not_noMismatch horder, fun hmismatch => ?_,
    fun order' page horder' hpage => mergedPage_searchAllWorkspaces horder' hpage⟩
  refine ⟨_, retrieveMulti_ok horder hmismatch, mergedPage_take _ _ _, ?_, ?_⟩
  · intro hscores workspaceIds' order' hperm horder'
    -- with scores that differ, the same results have one order only
    have hunion : (unionResults answer workspaceIds').Perm (unionResults answer workspaceIds) :=
      hperm.flatMap_right _
    rw [retrieveMulti_ok horder' fun workspaceId hmem =>
      hmismatch workspaceId (hperm.mem_iff.mp hmem)]
    rw [mergeSort_eq_of_perm hunion.symm fun a ha b hb hkey =>
      List.inj_on_of_nodup_map hscores ha hb (score_eq_of_mergeKey_eq hkey)]
  · intro hcandidates all hscores
    -- each workspace answers with the best of its candidates
    have hunion : unionResults answer workspaceIds =
        (workspaceIds.map (candidates tokenization backend hasVector request)).flatMap
          (List.take request.limit) := by
      rw [unionResults, List.flatMap_map]
      exact List.flatMap_congr fun workspaceId hmem =>
        resultsOf_workspaceSearch (hcandidates workspaceId hmem).1
    have hall : all =
        (workspaceIds.map (candidates tokenization backend hasVector request)).flatten :=
      List.flatMap_def
    rw [hall] at hscores
    rw [hunion, hall]
    refine take_mergeSort_flatMap_take (fun part hpart => ?_) (nodup_map_mergeKey hscores)
    obtain ⟨workspaceId, hmem, rfl⟩ := List.mem_map.mp hpart
    exact pairwise_mergeKey (hcandidates workspaceId hmem).2
      (hscores.sublist ((List.sublist_flatten_of_mem hpart).map _))

/-! ## Three workspaces -/

/-- A chunk that Weaviate ranks by its certainty. -/
def rankedChunk (chunkId documentId : String) (certainty : ℚ) : StoredChunk × Relevance :=
  ({ chunkId := chunkId, documentId := documentId, tags := [], reuseCount := 0 },
    { score := 0, certainty := certainty, distance := 0 })

/-- The workspace `w2` was embedded by another model, and the query of `w3` fails. -/
def sampleBackend (diversify : Bool) : SearchBackend where
  packFields _ := none
  settings _ :=
    { enableDiversification := diversify
      diversificationOverFetchMultiplier := 3
      roundScore := id
      reuseBoost := none }
  activeIdentity := { modelId := "bge-small", dimension := 384 }
  identityChecked _ := false
  collectionIdentity workspaceId :=
    some (some { modelId := if workspaceId = "w2" then "minilm" else "bge-small"
                 dimension := 384 })
  outcome workspaceId :=
    if workspaceId = "w3" then .fails
    else .ranked [rankedChunk "a" "d1" (9 / 10), rankedChunk "b" "d1" (8 / 10),
      rankedChunk "c" "d2" (7 / 10)]

def sampleRequest : SearchRequest where
  limit := 2
  minScore := 0
  documentIds := none
  filters := none
  limit_mem := by decide

/-- The answers of the workspaces to the sample request. -/
def sampleAnswer (diversify : Bool) : String → Except WorkspaceError (List SearchHit) :=
  workspaceSearch .ascii (sampleBackend diversify) true sampleRequest

/-- The hit of a sample chunk. -/
def sampleHit (chunkId documentId : String) (score : ℚ) : SearchHit where
  chunk := (rankedChunk chunkId documentId score).1
  score := score

/-- The user has uploaded to `w1` and `w3`. -/
def sampleAccess : AccessState noObjectIds where
  workspaces := ⟨[], List.nodup_nil, nofun⟩
  uploads := [⟨"w1", "u"⟩, ⟨"w3", "u"⟩]

theorem noMismatch_sample (diversify : Bool) : NoMismatch (sampleAnswer diversify) ["w1", "w3"] := by
  have hcheck : ∀ ws ∈ ["w1", "w3"], (match sampleAnswer diversify ws with
      | .error (.identity _) => false
      | _ => true) = true := by
    cases diversify <;> decide +kernel
  intro ws hmem e he
  have := hcheck ws hmem
  rw [he] at this
  cases this

theorem retrieveMulti_merge_sample :
    ∃ page, retrieveMulti (sampleAnswer false) ["w1", "w3"] 2 [1, 0] = some (.ok page) ∧
      MergedPage (sampleAnswer false) ["w1", "w3"] 2 page := by
  obtain ⟨page, hpage, hmerged, -⟩ :=
    (retrieveMulti_merge sampleAccess ⟨.completes, true, true, true, true, true⟩ "u" .ascii
      (sampleBackend false) true sampleRequest ["w1", "w3"] [1, 0] (by decide)).2.1
        (noMismatch_sample false)
  exact ⟨page, hpage, hmerged⟩

/-- One workspace of another model takes the results of all others with it, and a diversified
    page can lack the second best candidate. -/
theorem retrieveMulti_not_top :
    sampleAnswer false "w1" = .ok [sampleHit "a" "d1" (9 / 10), sampleHit "b" "d1" (8 / 10)] ∧
      retrieveMulti (sampleAnswer false) ["w1", "w2"] 2 [0, 1] =
        some (.error (.mismatch { modelId := "minilm", dimension := 384 }
          { modelId := "bge-small", dimension := 384 })) ∧
      candidates .ascii (sampleBackend true) true sampleRequest "w1" =
        [sampleHit "a" "d1" (9 / 10), sampleHit "b" "d1" (8 / 10),
          sampleHit "c" "d2" (7 / 10)] ∧
      retrieveMulti (sampleAnswer true) ["w1", "w3"] 2 [0, 1] =
        some (.ok [sampleHit "a" "d1" (9 / 10), sampleHit "c" "d2" (7 / 10)]) := by
  refine ⟨by decide +kernel, by decide +kernel, by decide +kernel, ?_⟩
  have hunion : unionResults (sampleAnswer true) ["w1", "w3"] =
      [sampleHit "a" "d1" (9 / 10), sampleHit "c" "d2" (7 / 10)] := by
    decide +kernel
  rw [retrieveMulti_ok (by decide) (noMismatch_sample true), hunion,
    List.mergeSort_of_pairwise (by decide +kernel)]
  rfl

end Inherent
