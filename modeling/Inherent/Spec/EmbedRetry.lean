import Inherent.Native.EmbedBatches

/-!
# The budget of a retried batch

The retry loop sleeps within what is left of its budget, stops at the first result that is not a
transient error, and otherwise stops when the attempts or the budget are used up.  The timeout of
the store activity covers every batch at that bound.
-/

namespace Inherent

variable {V : Type} {outcome : Nat → Except EmbedException V} {jitter : Nat → Jitter}
  {retryBudgetS : ℚ}

theorem plannedDelay_nonneg (attempt : Nat) (r : Jitter) : 0 ≤ plannedDelay attempt r := by
  have hr := r.2.1
  have hbase : (0 : ℚ) ≤ min 8 (1 / 2 * 2 ^ (attempt - 1)) := le_min (by norm_num) (by positivity)
  exact mul_nonneg hbase (by linarith)

/-- A delay is capped at 8 seconds. -/
theorem plannedDelay_le (attempt : Nat) (r : Jitter) : plannedDelay attempt r ≤ 8 := by
  have hr := r.2
  have hbase : min (8 : ℚ) (1 / 2 * 2 ^ (attempt - 1)) ≤ 8 := min_le_left _ _
  calc plannedDelay attempt r
      ≤ 8 * (1 / 2 + r.1 * (1 / 2)) := mul_le_mul_of_nonneg_right hbase (by linarith [hr.1])
    _ ≤ 8 * 1 := mul_le_mul_of_nonneg_left (by linarith [hr.2]) (by norm_num)
    _ = 8 := by norm_num

/-- What the loop does from an attempt on, with the seconds that have been slept before it. -/
structure LoopSpec (outcome : Nat → Except EmbedException V) (retryBudgetS : ℚ)
    (remaining attempt : Nat) (sleptTotal : ℚ) (run : RetryRun V) : Prop where
  attempts : attempt ≤ run.attempts ∧ run.attempts ≤ attempt + remaining
  earlier : ∀ i, attempt ≤ i → i < run.attempts →
    ∃ e, outcome i = .error e ∧ isTransientEmbedError e = true
  result : run.result = outcome run.attempts
  length : run.attempts = attempt + run.delays.length
  delay : ∀ d ∈ run.delays, 0 ≤ d ∧ d ≤ 8
  budget : sleptTotal + run.delays.sum ≤ max sleptTotal retryBudgetS
  /-- A transient error is raised when the attempts or the budget are used up. -/
  stop : ∀ e, run.result = .error e → isTransientEmbedError e = true →
    run.attempts = attempt + remaining ∨ retryBudgetS ≤ sleptTotal + run.delays.sum

/-- The loop that stops at its first attempt. -/
theorem loopSpec_stopped {result : Except EmbedException V} {remaining attempt : Nat}
    {sleptTotal : ℚ} (hresult : outcome attempt = result)
    (hstop : ∀ e, result = .error e → isTransientEmbedError e = true →
      remaining = 0 ∨ retryBudgetS ≤ sleptTotal) :
    LoopSpec outcome retryBudgetS remaining attempt sleptTotal
      { result := result, attempts := attempt, delays := [] } where
  attempts := ⟨le_refl _, Nat.le_add_right _ _⟩
  earlier i hle hlt := absurd hlt (Nat.not_lt_of_le hle)
  result := hresult.symm
  length := rfl
  delay d hd := absurd hd List.not_mem_nil
  budget := by simp
  stop e he htransient := by
    rcases hstop e he htransient with rfl | hbudget
    · exact Or.inl rfl
    · exact Or.inr (by simpa using hbudget)

/-- The loop that sleeps and goes on. -/
theorem loopSpec_delayed {e : EmbedException} {remaining attempt : Nat} {sleptTotal delay : ℚ}
    {later : RetryRun V} (houtcome : outcome attempt = .error e)
    (htransient : isTransientEmbedError e = true) (hdelay : 0 ≤ delay ∧ delay ≤ 8)
    (hwithin : sleptTotal + delay ≤ retryBudgetS)
    (h : LoopSpec outcome retryBudgetS remaining (attempt + 1) (sleptTotal + delay) later) :
    LoopSpec outcome retryBudgetS (remaining + 1) attempt sleptTotal
      { later with delays := delay :: later.delays } := by
  have hsum : sleptTotal + (delay :: later.delays).sum =
      sleptTotal + delay + later.delays.sum := by
    rw [List.sum_cons]
    ring
  have hattempts := h.attempts
  have hlength := h.length
  refine ⟨?_, fun i hle hlt => ?_, h.result, ?_, fun d hd => ?_, ?_, fun e' he' htransient' => ?_⟩
  · show attempt ≤ later.attempts ∧ later.attempts ≤ attempt + (remaining + 1)
    omega
  · rcases Nat.eq_or_lt_of_le hle with rfl | hlt'
    · exact ⟨e, houtcome, htransient⟩
    · exact h.earlier i hlt' hlt
  · show later.attempts = attempt + (later.delays.length + 1)
    omega
  · rcases List.mem_cons.mp hd with rfl | hd
    · exact hdelay
    · exact h.delay d hd
  · rw [hsum]
    exact h.budget.trans (max_le (hwithin.trans (le_max_right _ _)) (le_max_right _ _))
  · rw [hsum]
    refine (h.stop e' he' htransient').imp_left fun hlast => ?_
    show later.attempts = attempt + (remaining + 1)
    omega

theorem retryLoop_spec (remaining attempt : Nat) (sleptTotal : ℚ) :
    LoopSpec outcome retryBudgetS remaining attempt sleptTotal
      (retryLoop outcome jitter retryBudgetS remaining attempt sleptTotal) := by
  induction remaining generalizing attempt sleptTotal with
  | zero =>
    unfold retryLoop
    cases houtcome : outcome attempt with
    | ok vectors => exact loopSpec_stopped houtcome fun e he => nomatch he
    | error e => exact loopSpec_stopped houtcome fun _ _ _ => Or.inl rfl
  | succ remaining ih =>
    unfold retryLoop
    cases houtcome : outcome attempt with
    | ok vectors => exact loopSpec_stopped houtcome fun e he => nomatch he
    | error e =>
      simp only
      split
      · next hpermanent =>
        refine loopSpec_stopped houtcome fun e' he' htransient => ?_
        rw [← Except.error.inj he', hpermanent] at htransient
        cases htransient
      · next htransient =>
        split
        · next hspent => exact loopSpec_stopped houtcome fun _ _ _ => Or.inr (by linarith)
        · next hleft =>
          have hplanned := plannedDelay_nonneg attempt (jitter attempt)
          have hcapped := plannedDelay_le attempt (jitter attempt)
          have hwithin := min_le_right (plannedDelay attempt (jitter attempt))
            (retryBudgetS - sleptTotal)
          exact loopSpec_delayed houtcome (by simpa using htransient)
            ⟨le_min hplanned (by linarith), (min_le_left _ _).trans hcapped⟩ (by linarith)
            (ih (attempt + 1) _)

/-- What `embed_batch_with_retry` does within its bounds. -/
structure RetryOutcome (outcome : Nat → Except EmbedException V) (maxRetries : ℤ)
    (retryBudgetS : ℚ) (run : RetryRun V) : Prop where
  attempts : 1 ≤ run.attempts ∧ (run.attempts : ℤ) ≤ max 1 maxRetries
  /-- A delay before each attempt but the first, within the budget together. -/
  slept : run.attempts = run.delays.length + 1 ∧ (∀ d ∈ run.delays, 0 ≤ d ∧ d ≤ 8) ∧
    run.delays.sum ≤ max 0 retryBudgetS
  /-- The result is the last attempt's, and every attempt before it had a transient error. -/
  result : run.result = outcome run.attempts ∧ ∀ i, 1 ≤ i → i < run.attempts →
    ∃ e, outcome i = .error e ∧ isTransientEmbedError e = true
  /-- A transient error is raised only when the attempts or the budget are used up. -/
  stop : ∀ e, run.result = .error e → isTransientEmbedError e = true →
    (run.attempts : ℤ) = max 1 maxRetries ∨ retryBudgetS ≤ run.delays.sum
  /-- With attempts of at most `timeoutS` seconds, the call ends within `max_wall_clock_s`. -/
  wallClock : ∀ (duration : Nat → ℚ) (timeoutS : ℚ), 0 ≤ timeoutS → 0 ≤ retryBudgetS →
    (∀ i, duration i ≤ timeoutS) →
    ((List.range run.attempts).map fun i => duration (i + 1)).sum + run.delays.sum ≤
      maxWallClockS maxRetries timeoutS retryBudgetS

theorem cast_retryAttempts (maxRetries : ℤ) : (retryAttempts maxRetries : ℤ) = max 1 maxRetries :=
  Int.toNat_of_nonneg (by omega)

/-- Durations of at most `timeoutS` sum up to at most `timeoutS` for each attempt. -/
theorem sum_durations_le {duration : Nat → ℚ} {timeoutS : ℚ} (h : ∀ i, duration i ≤ timeoutS)
    (n : Nat) : ((List.range n).map fun i => duration (i + 1)).sum ≤ n * timeoutS := by
  have := List.sum_le_card_nsmul ((List.range n).map fun i => duration (i + 1)) timeoutS (by
    intro x hx
    obtain ⟨i, -, rfl⟩ := List.mem_map.mp hx
    exact h (i + 1))
  simpa using this

/-- A batch is budgeted with the bound of its retries. -/
theorem secondsPerBatch_eq : (secondsPerBatch : ℚ) =
    maxWallClockS defaultBatchMaxRetries defaultTimeoutS batchRetrySleepBudgetS := by
  norm_num [secondsPerBatch, maxWallClockS, defaultBatchMaxRetries, defaultTimeoutS,
    batchRetrySleepBudgetS]

/-- Below its ceiling the store timeout covers the batches one after the other, each with all of
    its retries. -/
theorem sum_le_weaviateStoreTimeoutSeconds {chunkCount batchSize : ℤ} {times : List ℚ}
    (hlength : times.length ≤ storeBatches chunkCount batchSize)
    (htimes : ∀ t ∈ times,
      t ≤ maxWallClockS defaultBatchMaxRetries defaultTimeoutS batchRetrySleepBudgetS)
    (hceiling : weaviateStoreTimeoutSeconds chunkCount batchSize < storeMaxTimeoutSeconds) :
    times.sum + storeFixedOverheadSeconds ≤ weaviateStoreTimeoutSeconds chunkCount batchSize := by
  have hraw : weaviateStoreTimeoutSeconds chunkCount batchSize =
      storeBatches chunkCount batchSize * secondsPerBatch + storeFixedOverheadSeconds :=
    min_eq_right (le_of_not_ge fun h => by
      rw [weaviateStoreTimeoutSeconds, min_eq_left h] at hceiling
      exact lt_irrefl _ hceiling)
  have hsum := List.sum_le_card_nsmul times (secondsPerBatch : ℚ) (secondsPerBatch_eq ▸ htimes)
  rw [nsmul_eq_mul] at hsum
  have hcount : (times.length : ℚ) * secondsPerBatch ≤
      (storeBatches chunkCount batchSize : ℚ) * secondsPerBatch :=
    mul_le_mul_of_nonneg_right (by exact_mod_cast hlength) (Nat.cast_nonneg _)
  rw [hraw]
  push_cast
  linarith

end Inherent
