import Inherent.ForStd.StableSort
import Inherent.Native.ReuseBoost

/-!
# Reuse boost

`_apply_reuse_boost` on cited results is `applyReuseBoost` on their hits, and what it keeps of
their order follows from the stable sort and from the bounds of the multiplier.
-/

namespace Inherent

variable {log1p : Nat → ℚ} {roundScore : ℚ → ℚ} {weight : ℚ}

/-- What is known of `math.log1p`. -/
structure IsLog1p (log1p : Nat → ℚ) : Prop where
  zero : log1p 0 = 0
  mono : Monotone log1p

theorem IsLog1p.nonneg (hlog : IsLog1p log1p) (n : Nat) : 0 ≤ log1p n :=
  hlog.zero ▸ hlog.mono (Nat.zero_le n)

/-! ## The multiplier -/

theorem one_le_reuseBoostMultiplier (hlog : IsLog1p log1p) (weight : ℚ) (n : Nat) :
    1 ≤ reuseBoostMultiplier log1p n weight defaultBoostCap := by
  unfold reuseBoostMultiplier
  split
  · exact le_refl 1
  · next hpos =>
    push Not at hpos
    have := mul_nonneg hpos.2.le (hlog.nonneg n)
    exact le_min (by norm_num [defaultBoostCap]) (by linarith)

theorem reuseBoostMultiplier_le_cap (n : Nat) :
    reuseBoostMultiplier log1p n weight defaultBoostCap ≤ defaultBoostCap := by
  unfold reuseBoostMultiplier
  split
  · norm_num [defaultBoostCap]
  · exact min_le_left _ _

theorem reuseBoostMultiplier_mono (hlog : IsLog1p log1p) :
    Monotone fun n => reuseBoostMultiplier log1p n weight defaultBoostCap := by
  intro m n hmn
  by_cases hm : m ≤ 0 ∨ weight ≤ 0
  · -- nothing is boosted on the left
    have : reuseBoostMultiplier log1p m weight defaultBoostCap = 1 := if_pos hm
    simpa only [this] using one_le_reuseBoostMultiplier hlog weight n
  · have hn : ¬ (n ≤ 0 ∨ weight ≤ 0) := fun h => hm (h.imp_left (hmn.trans ·))
    simp only [reuseBoostMultiplier, if_neg hm, if_neg hn]
    push Not at hm
    have := mul_le_mul_of_nonneg_left (hlog.mono hmn) hm.2.le
    exact min_le_min_left _ (by linarith)

/-! ## One hit -/

/-- A hit after the boost of a workspace with the weight. -/
def boostedHit (log1p : Nat → ℚ) (roundScore : ℚ → ℚ) (weight : ℚ) (hit : SearchHit) :
    SearchHit :=
  if weight ≤ 0 then hit
  else
    { hit with
      score := roundScore
        (reuseBoostedScore log1p hit.score hit.chunk.reuseCount weight defaultBoostCap) }

@[simp] theorem boostedHit_chunk (hit : SearchHit) :
    (boostedHit log1p roundScore weight hit).chunk = hit.chunk := by
  unfold boostedHit
  split <;> rfl

theorem boostedHit_score_bounds (hlog : IsLog1p log1p) (hround : Monotone roundScore)
    {hit : SearchHit} (hscore : 0 ≤ hit.score) (hfixed : roundScore hit.score = hit.score) :
    hit.score ≤ (boostedHit log1p roundScore weight hit).score ∧
      (boostedHit log1p roundScore weight hit).score ≤
        roundScore (defaultBoostCap * hit.score) := by
  have hcap : hit.score ≤ defaultBoostCap * hit.score :=
    le_mul_of_one_le_left hscore (by norm_num [defaultBoostCap])
  unfold boostedHit
  split
  · have hle := hround hcap
    rw [hfixed] at hle
    exact ⟨le_refl _, hle⟩
  · refine ⟨?_, hround ?_⟩
    · have hle := hround (le_mul_of_one_le_right hscore
        (one_le_reuseBoostMultiplier hlog weight hit.chunk.reuseCount))
      rw [hfixed] at hle
      exact hle
    · rw [reuseBoostedScore, mul_comm]
      exact mul_le_mul_of_nonneg_right (reuseBoostMultiplier_le_cap _) hscore

theorem boostedHit_mono_reuseCount (hlog : IsLog1p log1p) (hround : Monotone roundScore)
    {a b : SearchHit} (hscore : 0 ≤ a.score) (heq : a.score = b.score)
    (hcount : a.chunk.reuseCount ≤ b.chunk.reuseCount) :
    (boostedHit log1p roundScore weight a).score ≤
      (boostedHit log1p roundScore weight b).score := by
  unfold boostedHit
  split
  · exact heq.le
  · refine hround ?_
    rw [reuseBoostedScore, reuseBoostedScore, ← heq]
    exact mul_le_mul_of_nonneg_left (reuseBoostMultiplier_mono hlog hcount) hscore

theorem boostedHit_mono_score (hlog : IsLog1p log1p) (hround : Monotone roundScore)
    {a b : SearchHit} (hscore : a.score ≤ b.score)
    (hcount : a.chunk.reuseCount = b.chunk.reuseCount) :
    (boostedHit log1p roundScore weight a).score ≤
      (boostedHit log1p roundScore weight b).score := by
  unfold boostedHit
  split
  · exact hscore
  · refine hround ?_
    rw [reuseBoostedScore, reuseBoostedScore, hcount]
    exact mul_le_mul_of_nonneg_right hscore
      (zero_le_one.trans (one_le_reuseBoostMultiplier hlog weight _))

/-! ## The list -/

/-- The boost of a workspace with the weight, as search looks it up. -/
def workspaceBoost (log1p : Nat → ℚ) (roundScore : ℚ → ℚ) (weight : ℚ) :
    Option (ℚ → Nat → ℚ) :=
  if weight ≤ 0 then none
  else some fun score n => roundScore (reuseBoostedScore log1p score n weight defaultBoostCap)

/-- On the hits, `_apply_reuse_boost` is the boost of search. -/
theorem applyReuseBoostCited_toSearchHit (workspaceReuseBoost : String → Option ℚ)
    (results : List CitedHit) (workspaceId : String) (settings : SearchSettings)
    (hboost : settings.reuseBoost =
      workspaceBoost log1p roundScore (reuseWeight workspaceReuseBoost workspaceId)) :
    (applyReuseBoostCited log1p roundScore workspaceReuseBoost results workspaceId).map
        CitedHit.toSearchHit =
      applyReuseBoost settings (results.map CitedHit.toSearchHit) := by
  rw [applyReuseBoost, hboost]
  unfold applyReuseBoostCited workspaceBoost
  by_cases hweight : reuseWeight workspaceReuseBoost workspaceId ≤ 0
  · simp only [if_pos hweight]
  · simp only [if_neg hweight]
    rw [List.map_mergeSort (s := fun a b : SearchHit => decide (b.score ≤ a.score))
      fun a _ b _ => rfl, List.map_map, List.map_map]
    rfl

/-- Hits in non-increasing order of their scores. -/
def ScoreSorted (hits : List SearchHit) : Prop := hits.Pairwise fun a b => b.score ≤ a.score

instance (hits : List SearchHit) : Decidable (ScoreSorted hits) :=
  inferInstanceAs (Decidable (hits.Pairwise fun a b => b.score ≤ a.score))

/-- A boost that keeps the hits and their order as far as the scores allow. -/
structure CoherentBoost (roundScore : ℚ → ℚ) (weight : ℚ) (boost : SearchHit → SearchHit)
    (hits boosted : List SearchHit) : Prop where
  perm : boosted.Perm (hits.map boost)
  unchanged : weight ≤ 0 → boosted = hits
  sorted : 0 < weight ∨ ScoreSorted hits → ScoreSorted boosted
  stable : ∀ score, (boosted.filter fun hit => hit.score = score) =
    (hits.map boost).filter fun hit => hit.score = score
  /-- Hits with the same reuse count keep their order. -/
  inOrder : ScoreSorted hits → ∀ n, (boosted.filter fun hit => hit.chunk.reuseCount = n) =
    (hits.filter fun hit => hit.chunk.reuseCount = n).map boost
  chunk : ∀ hit, (boost hit).chunk = hit.chunk
  bounds : ∀ hit ∈ hits, 0 ≤ hit.score → roundScore hit.score = hit.score →
    hit.score ≤ (boost hit).score ∧ (boost hit).score ≤ roundScore (defaultBoostCap * hit.score)
  mono_reuseCount : ∀ a ∈ hits, ∀ b ∈ hits, 0 ≤ a.score → a.score = b.score →
    a.chunk.reuseCount ≤ b.chunk.reuseCount → (boost a).score ≤ (boost b).score

/-- The hits that are boosted, before the sort, keep their order for each reuse count. -/
theorem filter_reuseCount_map_boostedHit (hits : List SearchHit) (n : Nat) :
    ((hits.map (boostedHit log1p roundScore weight)).filter fun hit =>
        hit.chunk.reuseCount = n) =
      (hits.filter fun hit => hit.chunk.reuseCount = n).map
        (boostedHit log1p roundScore weight) := by
  rw [List.filter_map]
  simp [Function.comp_def]

theorem applyReuseBoost_coherent (hlog : IsLog1p log1p) (hround : Monotone roundScore)
    {settings : SearchSettings}
    (hboost : settings.reuseBoost = workspaceBoost log1p roundScore weight)
    (hits : List SearchHit) :
    CoherentBoost roundScore weight (boostedHit log1p roundScore weight) hits
      (applyReuseBoost settings hits) := by
  unfold applyReuseBoost
  rw [hboost]
  unfold workspaceBoost
  by_cases hweight : weight ≤ 0
  · have hid : hits.map (boostedHit log1p roundScore weight) = hits :=
      (List.map_congr_left fun hit _ => if_pos hweight).trans (List.map_id hits)
    simp only [if_pos hweight]
    exact
      { perm := by rw [hid]
        unchanged := fun _ => rfl
        sorted := fun h => h.resolve_left (not_lt_of_ge hweight)
        stable := fun score => by rw [hid]
        inOrder := fun _ n => by rw [← filter_reuseCount_map_boostedHit, hid]
        chunk := boostedHit_chunk
        bounds := fun _ _ => boostedHit_score_bounds hlog hround
        mono_reuseCount := fun _ _ _ _ => boostedHit_mono_reuseCount hlog hround }
  · have hmap : (hits.map fun hit => { hit with
          score := roundScore
            (reuseBoostedScore log1p hit.score hit.chunk.reuseCount weight defaultBoostCap) }) =
        hits.map (boostedHit log1p roundScore weight) :=
      List.map_congr_left fun hit _ => (if_neg hweight).symm
    simp only [if_neg hweight]
    rw [hmap]
    exact
      { perm := List.mergeSort_perm _ _
        unchanged := fun h => absurd h hweight
        sorted := fun _ => StableSort.pairwise_mergeSort_key SearchHit.score _
        stable := fun score => StableSort.filter_key_mergeSort SearchHit.score _ score
        inOrder := fun hsorted n => by
          rw [← filter_reuseCount_map_boostedHit]
          apply StableSort.filter_mergeSort_key
          -- hits with the same count keep the order of their scores
          rw [filter_reuseCount_map_boostedHit, List.pairwise_map]
          refine ((hsorted.filter _).imp_of_mem fun ha hb hle => ?_)
          exact boostedHit_mono_score hlog hround hle
            ((of_decide_eq_true (List.mem_filter.mp hb).2).trans
              (of_decide_eq_true (List.mem_filter.mp ha).2).symm)
        chunk := boostedHit_chunk
        bounds := fun _ _ => boostedHit_score_bounds hlog hround
        mono_reuseCount := fun _ _ _ _ => boostedHit_mono_reuseCount hlog hround }

theorem isLog1p_natCast : IsLog1p (Nat.cast : Nat → ℚ) where
  zero := Nat.cast_zero
  mono := Nat.mono_cast

/-- Four decimals, ties upwards. -/
def roundHalfUp4 (score : ℚ) : ℚ := (⌊score * 10000 + 1 / 2⌋ : ℚ) / 10000

theorem roundHalfUp4_mono : Monotone roundHalfUp4 := by
  intro a b hab
  have hfloor : ⌊a * 10000 + 1 / 2⌋ ≤ ⌊b * 10000 + 1 / 2⌋ := Int.floor_le_floor (by linarith)
  exact div_le_div_of_nonneg_right (by exact_mod_cast hfloor) (by norm_num)

/-- A result of a chunk that was reused once. -/
def reusedOnce (chunkId : String) (score : ℚ) : CitedHit :=
  citedHit roundHalfUp4 { chunkId := chunkId, documentId := "d", tags := [], reuseCount := 1 }
    "report.pdf" "text" score

end Inherent
