import Inherent.Native.QualityGate

/-!
# What the quality gate returns

A gated search retrieves at most twice.  Its response is the first page, or the page of the one
fallback request if that is answered, and the verdict is always the one of the returned page.
-/

namespace Inherent

open StatefulProgram

variable {F ε : Type} {answer : Nat → QueryRequest F → Except ε (List SearchHit × ℚ)}
  {roundMs : ℚ → ℚ}

theorem exec_retrieve (request : QueryRequest F) (log : List (QueryRequest F)) :
    exec (retrieve answer request) log = (answer log.length request, log ++ [request]) := by
  unfold retrieve
  rw [exec_bind_of_ok (exec_get log), exec_bind_of_ok (exec_set _ log)]
  cases answer log.length request <;> rfl

/-- The response with the verdict of its own page. -/
def judged (response : GatedResponse) : GatedResponse :=
  { response with qualityVerdict := some (evaluate response.results) }

/-- A sufficient page has no fallback. -/
theorem buildFallbackRequest_sufficient {request : QueryRequest F} {verdict : QualityVerdict}
    (h : verdict.verdict = .sufficient) : buildFallbackRequest request verdict = none := by
  rw [buildFallbackRequest, h]

/-- Without a fallback request nothing is retrieved. -/
theorem exec_gate_none {request : QueryRequest F} {response : GatedResponse}
    (hnone : buildFallbackRequest request (evaluate response.results) = none)
    (log : List (QueryRequest F)) :
    exec (applyQualityGateAndFallback roundMs answer request response) log =
      (.ok (judged response), log) := by
  by_cases hsufficient : (evaluate response.results).verdict = .sufficient
  · simp only [applyQualityGateAndFallback, if_pos hsufficient]
    rfl
  · simp only [applyQualityGateAndFallback, if_neg hsufficient, hnone]
    rfl

/-- A fallback request is retrieved once, and its page replaces the first one. -/
theorem exec_gate_some {request fallback : QueryRequest F} {response : GatedResponse}
    (hsome : buildFallbackRequest request (evaluate response.results) = some fallback)
    (log : List (QueryRequest F)) :
    exec (applyQualityGateAndFallback roundMs answer request response) log =
      (match answer log.length fallback with
        | .ok page => .ok (afterFallback roundMs (judged response)
            (fallbackStrategyName (evaluate response.results)) page)
        | .error _ => .ok (judged response), log ++ [fallback]) := by
  have hsufficient : (evaluate response.results).verdict ≠ .sufficient := by
    intro h
    rw [buildFallbackRequest_sufficient h] at hsome
    cases hsome
  simp only [applyQualityGateAndFallback, if_neg hsufficient, hsome]
  rw [exec_tryCatch, exec_bind, exec_retrieve]
  cases answer log.length fallback <;> rfl

/-- The fallback keeps the limit and the threshold, unless the evidence was insufficient. -/
theorem buildFallbackRequest_bounds {request fallback : QueryRequest F} {verdict : QualityVerdict}
    (h : buildFallbackRequest request verdict = some fallback) :
    (fallback.limit = request.limit ∧ fallback.minScore = request.minScore) ∨
      (verdict.verdict = .insufficientEvidence ∧
        fallback.limit = broadenedLimit request.limit ∧ fallback.minScore = 0) := by
  unfold buildFallbackRequest at h
  split at h
  · split at h
    · cases h
    · cases h
      exact Or.inl ⟨rfl, rfl⟩
  · next hverdict =>
    split at h
    · cases h
    · cases h
      exact Or.inr ⟨hverdict, rfl, rfl⟩
  · cases h

/-- What a gated search returns for its first page, and the requests that it has retrieved. -/
structure GateOutcome (Fits : Nat → ℚ → List SearchHit → Prop)
    (answer : Nat → QueryRequest F → Except ε (List SearchHit × ℚ)) (request : QueryRequest F)
    (first : List SearchHit) (response : GatedResponse) (log : List (QueryRequest F)) : Prop where
  atMostOneRetry : log.length ≤ 2 ∧ log.head? = some request
  sufficient : (evaluate first).verdict = .sufficient → log = [request]
  verdict : response.qualityVerdict = some (evaluate response.results)
  totalResults : response.totalResults = response.results.length
  /-- The first page, or the page of the retry that has been answered. -/
  page : (response.performedFallback = false ∧ response.results = first) ∨
    (response.performedFallback = true ∧ ∃ fallback ms,
      buildFallbackRequest request (evaluate first) = some fallback ∧
        log = [request, fallback] ∧ answer 1 fallback = .ok (response.results, ms))
  /-- The page meets the request, or the broadened one after insufficient evidence. -/
  fits : Fits request.limit request.minScore response.results ∨
    (response.performedFallback = true ∧ (evaluate first).verdict = .insufficientEvidence ∧
      Fits (broadenedLimit request.limit) 0 response.results)

/-- The gate's outcome, when each page meets the limit and the threshold of its request. -/
theorem gatedSearch_outcome (Fits : Nat → ℚ → List SearchHit → Prop) (roundMs : ℚ → ℚ)
    (answer : Nat → QueryRequest F → Except ε (List SearchHit × ℚ)) (request : QueryRequest F)
    (hfits : ∀ n req hits ms, answer n req = .ok (hits, ms) → Fits req.limit req.minScore hits) :
    (∀ e, answer 0 request = .error e →
      exec (gatedSearch roundMs answer request) [] = (.error e, [request])) ∧
    (∀ first ms, answer 0 request = .ok (first, ms) →
      ∃ response log, exec (gatedSearch roundMs answer request) [] = (.ok response, log) ∧
        GateOutcome Fits answer request first response log) := by
  unfold gatedSearch
  rw [exec_bind, exec_retrieve, List.nil_append, List.length_nil]
  refine ⟨fun e hfirst => ?_, fun first ms hfirst => ?_⟩
  · rw [hfirst]
  · rw [hfirst]
    have hmeets := hfits 0 request first ms hfirst
    cases hfallback : buildFallbackRequest request (evaluate first) with
    | none =>
      simp only
      rw [exec_gate_none hfallback]
      exact ⟨_, _, rfl,
        { atMostOneRetry := ⟨by simp, rfl⟩
          sufficient := fun _ => rfl
          verdict := rfl
          totalResults := rfl
          page := Or.inl ⟨rfl, rfl⟩
          fits := Or.inl hmeets }⟩
    | some fallback =>
      simp only
      rw [exec_gate_some hfallback]
      -- a sufficient page has no fallback
      have hsufficient : (evaluate first).verdict ≠ .sufficient := by
        intro h
        rw [buildFallbackRequest_sufficient h] at hfallback
        cases hfallback
      cases hretry : answer [request].length fallback with
      | error e =>
        exact ⟨_, _, rfl,
          { atMostOneRetry := ⟨by simp, rfl⟩
            sufficient := fun h => absurd h hsufficient
            verdict := rfl
            totalResults := rfl
            page := Or.inl ⟨rfl, rfl⟩
            fits := Or.inl hmeets }⟩
      | ok retried =>
        obtain ⟨hits, retryMs⟩ := retried
        have hretried := hfits 1 fallback hits retryMs hretry
        refine ⟨_, _, rfl,
          { atMostOneRetry := ⟨by simp, rfl⟩
            sufficient := fun h => absurd h hsufficient
            verdict := rfl
            totalResults := rfl
            page := Or.inr ⟨rfl, fallback, retryMs, hfallback, rfl, hretry⟩
            fits := ?_ }⟩
        -- the retried page fits what the fallback asks for
        rcases buildFallbackRequest_bounds hfallback with ⟨hlimit, hscore⟩ | ⟨hv, hlimit, hscore⟩
        · rw [hlimit, hscore] at hretried
          exact Or.inl hretried
        · rw [hlimit, hscore] at hretried
          exact Or.inr ⟨rfl, hv, hretried⟩

/-! ## Two searches -/

/-- A semantic query. -/
def semanticQuery (limit : Nat) (minScore : ℚ) (hlimit : 1 ≤ limit ∧ limit ≤ 100) :
    QueryRequest Unit where
  limit := limit
  minScore := minScore
  documentIds := none
  filters := none
  limit_mem := hlimit
  query := "refund policy"
  searchMode := .semantic
  alpha := none
  query_length := by decide

/-- A hit of a chunk with the score. -/
def scoredHit (chunkId : String) (score : ℚ) : SearchHit where
  chunk := { chunkId := chunkId, documentId := "d", tags := [], reuseCount := 0 }
  score := score

/-- The first retrieval answers with one page, and any other with another one. -/
def twoPages (first second : List SearchHit) (n : Nat) (_ : QueryRequest Unit) :
    Except Unit (List SearchHit × ℚ) :=
  .ok (if n = 0 then first else second, 0)

theorem gatedSearch_outcome_empty :
    ∃ response log, exec (gatedSearch id (twoPages [] []) (semanticQuery 10 0 (by decide))) [] =
        (.ok response, log) ∧
      GateOutcome (fun limit _ hits => hits.length ≤ limit) (twoPages [] [])
        (semanticQuery 10 0 (by decide)) [] response log := by
  refine (gatedSearch_outcome (fun limit _ hits => hits.length ≤ limit) id (twoPages [] [])
    (semanticQuery 10 0 (by decide)) ?_).2 [] 0 rfl
  intro n req hits ms h
  simp only [twoPages, ite_self, Except.ok.injEq, Prod.mk.injEq] at h
  rw [← h.1]
  exact Nat.zero_le _

/-- A page of weak hits gives way to an empty one, and a page that meets limit and threshold to
    one that does not. -/
theorem gatedSearch_worse :
    (exec (gatedSearch id (twoPages [scoredHit "a" (2 / 5), scoredHit "b" (3 / 10)] [])
        (semanticQuery 10 0 (by decide))) []).1 = .ok
      { results := []
        totalResults := 0
        processingTimeMs := 0
        qualityVerdict := some
          { verdict := .insufficientEvidence, reasonCode := "no_results", confidence := 0 }
        performedFallback := true
        fallbackStrategy := some "keyword_retry" } ∧
    (exec (gatedSearch id (twoPages [scoredHit "a" (9 / 10)]
        [scoredHit "a" (9 / 10), scoredHit "b" (1 / 10)])
        (semanticQuery 1 (3 / 5) (by decide))) []).1 = .ok
      { results := [scoredHit "a" (9 / 10), scoredHit "b" (1 / 10)]
        totalResults := 2
        processingTimeMs := 0
        qualityVerdict := some
          { verdict := .sufficient, reasonCode := "ok", confidence := 9 / 10 }
        performedFallback := true
        fallbackStrategy := some "broadened_query" } := by
  decide +kernel

end Inherent
