import Inherent.ForStd.DiscountedSum
import Inherent.Native.RankingMetrics

/-!
# Ranking metrics are well behaved

Every metric looks at a ranking through its first occurrences.  The gains of distinct documents
are a selection from the gains of the ideal ranking, so that the discounted sum of the ideal
ranking is the largest (`DiscountedSum.discountedSum_le_of_prefix`).
-/

namespace Inherent

open DiscountedSum

/-! ## Repeated documents -/

/-- Repeats of documents that stand earlier in a ranking are removed from it. -/
inductive RemovesRepeats : List String → List String → Prop
  | refl (ranked : List String) : RemovesRepeats ranked ranked
  | remove {before after kept : List String} {docId : String} :
    docId ∈ before → RemovesRepeats (before ++ after) kept →
      RemovesRepeats (before ++ docId :: after) kept

theorem RemovesRepeats.dedupe_eq {ranked kept : List String} (h : RemovesRepeats ranked kept) :
    dedupePreserveOrder ranked = dedupePreserveOrder kept := by
  induction h with
  | refl ranked => rfl
  | remove hmem _ ih =>
    rw [← ih, dedupePreserveOrder_eq, dedupePreserveOrder_eq, List.eraseDups_append,
      List.eraseDups_append, List.cons_removeAll, if_neg]
    simpa using hmem

/-- The deduplication removes repeats, behind any documents that it has seen. -/
theorem removesRepeats_dedupeLoop (seen ranked : List String) :
    RemovesRepeats (seen ++ ranked) (seen ++ dedupeLoop seen.toFinset ranked) := by
  induction ranked generalizing seen with
  | nil => exact .refl _
  | cons docId ranked ih =>
    unfold dedupeLoop
    by_cases hmem : docId ∈ seen
    · rw [if_pos (List.mem_toFinset.mpr hmem)]
      exact .remove hmem (ih seen)
    · rw [if_neg (by rwa [List.mem_toFinset])]
      have hnext := ih (seen ++ [docId])
      rwa [List.append_assoc, List.append_assoc, List.toFinset_append, Finset.union_comm] at hnext

theorem removesRepeats_dedupe (ranked : List String) :
    RemovesRepeats ranked (dedupePreserveOrder ranked) :=
  removesRepeats_dedupeLoop [] ranked

/-! ## Binary metrics -/

theorem nodup_topK (ranked : List String) (k : ℤ) : (topK ranked k).Nodup :=
  (nodup_dedupePreserveOrder ranked).sublist (List.take_sublist _ _)

theorem topK_sublist (ranked : List String) {k k' : ℤ} (h : k ≤ k') :
    (topK ranked k).Sublist (topK ranked k') :=
  List.take_sublist_take_left (Int.toNat_le_toNat h)

theorem countP_topK_le (ranked : List String) (relevant : Finset String) (k : ℤ) :
    (topK ranked k).countP (· ∈ relevant) ≤ relevant.card := by
  have hnodup := (nodup_topK ranked k).filter fun docId => decide (docId ∈ relevant)
  rw [List.countP_eq_length_filter, ← List.toFinset_card_of_nodup hnodup]
  apply Finset.card_le_card
  intro docId hdocId
  simpa using (List.mem_filter.mp (List.mem_toFinset.mp hdocId)).2

theorem recallAtK_mem_Icc (ranked relevant : List String) (k : ℤ) :
    recallAtK ranked relevant k ∈ Set.Icc (0 : ℚ) 1 := by
  unfold recallAtK
  simp only
  split
  · simp
  · exact ⟨by positivity, div_le_one_of_le₀ (by exact_mod_cast countP_topK_le _ _ _)
      (by positivity)⟩

theorem recallAtK_mono (ranked relevant : List String) {k k' : ℤ} (h : k ≤ k') :
    recallAtK ranked relevant k ≤ recallAtK ranked relevant k' := by
  by_cases hnone : relevant.toFinset = ∅ ∨ k ≤ 0
  · have hzero : recallAtK ranked relevant k = 0 := if_pos hnone
    rw [hzero]
    exact (recallAtK_mem_Icc ranked relevant k').1
  · have hnone' : ¬ (relevant.toFinset = ∅ ∨ k' ≤ 0) := by
      rintro (hempty | hk')
      · exact hnone (.inl hempty)
      · exact hnone (.inr (h.trans hk'))
    simp only [recallAtK, if_neg hnone, if_neg hnone']
    have hhits : (topK ranked k).countP (· ∈ relevant.toFinset) ≤
        (topK ranked k').countP (· ∈ relevant.toFinset) := (topK_sublist ranked h).countP_le
    gcongr

theorem hitAtK_mem_Icc (ranked relevant : List String) (k : ℤ) :
    hitAtK ranked relevant k ∈ Set.Icc (0 : ℚ) 1 := by
  unfold hitAtK
  simp only
  split
  · simp
  · split <;> simp

theorem hitAtK_mono (ranked relevant : List String) {k k' : ℤ} (h : k ≤ k') :
    hitAtK ranked relevant k ≤ hitAtK ranked relevant k' := by
  by_cases hhit : ¬ (relevant.toFinset = ∅ ∨ k ≤ 0) ∧
      (topK ranked k).any (· ∈ relevant.toFinset) = true
  · obtain ⟨hsome, hany⟩ := hhit
    have hsome' : ¬ (relevant.toFinset = ∅ ∨ k' ≤ 0) := by
      rintro (hempty | hk')
      · exact hsome (.inl hempty)
      · exact hsome (.inr (h.trans hk'))
    have hany' : (topK ranked k').any (· ∈ relevant.toFinset) = true := by
      obtain ⟨docId, hmem, hrelevant⟩ := List.any_eq_true.mp hany
      exact List.any_eq_true.mpr ⟨docId, (topK_sublist ranked h).subset hmem, hrelevant⟩
    simp only [hitAtK, if_neg hsome', if_pos hany']
    exact (hitAtK_mem_Icc ranked relevant k).2
  · have hzero : hitAtK ranked relevant k = 0 := by
      simp only [hitAtK]
      grind
    rw [hzero]
    exact (hitAtK_mem_Icc ranked relevant k').1

theorem mrrLoop_mem_Icc (relevant : Finset String) {rank : Nat} (hrank : 1 ≤ rank)
    (ranked : List String) : mrrLoop relevant rank ranked ∈ Set.Icc (0 : ℚ) 1 := by
  induction ranked generalizing rank with
  | nil => simp [mrrLoop]
  | cons docId ranked ih =>
    unfold mrrLoop
    split
    · have hcast : (1 : ℚ) ≤ rank := by exact_mod_cast hrank
      exact ⟨by positivity, div_le_one_of_le₀ hcast (by positivity)⟩
    · exact ih (by omega)

theorem mrr_mem_Icc (ranked relevant : List String) : mrr ranked relevant ∈ Set.Icc (0 : ℚ) 1 := by
  unfold mrr
  simp only
  split
  · simp
  · exact mrrLoop_mem_Icc _ (le_refl 1) _

/-! ## Discounted gains -/

section

variable {K : Type} [Field K] [LinearOrder K] [IsStrictOrderedRing K]

/-- The gain of a grade. -/
def gain (fns : GainFunctions K) (grade : K) : K := if grade > 0 then fns.pow2 grade - 1 else 0

/-- The discount of the ranks from `rank` on. -/
def discount (fns : GainFunctions K) (rank : Nat) (i : Nat) : K := 1 / fns.log2 (rank + i + 1)

theorem gain_nonneg (fns : GainFunctions K) (grade : K) : 0 ≤ gain fns grade := by
  unfold gain
  split
  · next hgrade =>
    rw [sub_nonneg, ← fns.pow2_zero]
    exact fns.pow2_mono hgrade.le
  · exact le_refl 0

theorem gain_mono (fns : GainFunctions K) : Monotone (gain fns) := by
  intro g h hgh
  by_cases hg : g > 0
  · rw [gain, gain, if_pos hg, if_pos (hg.trans_le hgh)]
    exact sub_le_sub_right (fns.pow2_mono hgh) 1
  · rw [gain, if_neg hg]
    exact gain_nonneg fns h

theorem discount_nonneg (fns : GainFunctions K) {rank : Nat} (hrank : 1 ≤ rank) (i : Nat) :
    0 ≤ discount fns rank i :=
  one_div_nonneg.mpr (fns.log2_pos _ (by omega)).le

theorem discount_antitone (fns : GainFunctions K) {rank : Nat} (hrank : 1 ≤ rank) :
    Antitone (discount fns rank) := fun i j hij =>
  one_div_le_one_div_of_le (fns.log2_pos _ (by omega))
    (fns.log2_mono _ _ (by omega) (by omega))

theorem dcgLoop_eq (fns : GainFunctions K) (rank : Nat) (total : K) (grades : List K) :
    dcgLoop fns rank total grades =
      total + discountedSum (discount fns rank) (grades.map (gain fns)) := by
  induction grades generalizing rank total with
  | nil => simp [dcgLoop]
  | cons grade grades ih =>
    have hshift : discount fns (rank + 1) = fun i => discount fns rank (i + 1) := by
      funext i
      rw [discount, discount, Nat.add_right_comm rank 1 i, ← Nat.add_assoc]
    rw [dcgLoop, ih, List.map_cons, discountedSum_cons, hshift, gain, discount, Nat.add_zero]
    split <;> ring

theorem dcg_eq (fns : GainFunctions K) (grades : List K) :
    dcg fns grades = discountedSum (discount fns 1) (grades.map (gain fns)) := by
  rw [dcg, dcgLoop_eq, zero_add]

theorem dcg_nonneg (fns : GainFunctions K) (grades : List K) : 0 ≤ dcg fns grades := by
  rw [dcg_eq]
  apply discountedSum_nonneg (discount_nonneg fns (le_refl 1))
  intro x hx
  obtain ⟨grade, -, rfl⟩ := List.mem_map.mp hx
  exact gain_nonneg fns grade

/-! ## The ideal ranking -/

/-- A document with a positive grade is an item of the map. -/
theorem Grades.mem_items_of_get_pos {grades : Grades K} {docId : String}
    (h : 0 < grades.get docId) : (docId, grades.get docId) ∈ grades.items := by
  unfold Grades.get at h ⊢
  cases hlookup : grades.items.lookup docId with
  | none => simp [hlookup] at h
  | some grade =>
    obtain ⟨before, after, hitems, -⟩ := List.lookup_eq_some_iff.mp hlookup
    rw [hitems, Option.getD_some]
    exact List.mem_append_right before List.mem_cons_self

/-- The positive grades of distinct documents are a selection from the positive grades. -/
theorem subperm_values (grades : Grades K) {docIds : List String} (hnodup : docIds.Nodup) :
    ((docIds.map grades.get).filter (· > 0)).Subperm (grades.values.filter (· > 0)) := by
  have hitems : ((docIds.filter fun docId => grades.get docId > 0).map
      fun docId => (docId, grades.get docId)).Subperm
        (grades.items.filter fun item => item.2 > 0) := by
    apply List.subperm_of_subset
    · exact (hnodup.filter _).map fun _ _ h => congrArg Prod.fst h
    · intro item hitem
      obtain ⟨docId, hmem, rfl⟩ := List.mem_map.mp hitem
      have hpos : grades.get docId > 0 := by simpa using (List.mem_filter.mp hmem).2
      exact List.mem_filter.mpr ⟨Grades.mem_items_of_get_pos hpos, by simpa using hpos⟩
  have hgrades := subperm_map Prod.snd hitems
  rw [List.map_map] at hgrades
  rw [Grades.values, List.filter_map, List.filter_map]
  exact hgrades

theorem sum_gain_filter (fns : GainFunctions K) (grades : List K) :
    ((grades.filter (· > 0)).map (gain fns)).sum = (grades.map (gain fns)).sum := by
  induction grades with
  | nil => rfl
  | cons grade grades ih =>
    by_cases hgrade : grade > 0
    · rw [List.filter_cons_of_pos (by simpa using hgrade), List.map_cons, List.map_cons,
        List.sum_cons, List.sum_cons, ih]
    · have hgain : gain fns grade = 0 := if_neg hgrade
      rw [List.filter_cons_of_neg (by simpa using hgrade), List.map_cons, List.sum_cons, ih, hgain,
        zero_add]

/-- The positive grades in descending order. -/
def descendingGrades (grades : Grades K) : List K :=
  (grades.values.filter (· > 0)).mergeSort fun a b => b ≤ a

omit [IsStrictOrderedRing K] in
theorem pairwise_descendingGrades (grades : Grades K) :
    (descendingGrades grades).Pairwise (· ≥ ·) := by
  have hsorted : (descendingGrades grades).Pairwise fun a b => decide (b ≤ a) :=
    List.pairwise_mergeSort
      (fun a b c hab hbc => decide_eq_true ((of_decide_eq_true hbc).trans (of_decide_eq_true hab)))
      (fun a b => by simpa using le_total b a) _
  exact hsorted.imp fun h => by simpa using h

/-- The gains of the first `n` documents of a ranking are at most the first `n` gains of the ideal
    ranking. -/
theorem sum_take_gain_le (fns : GainFunctions K) (ranked : List String) (grades : Grades K)
    (k : ℤ) (n : Nat) :
    ((((topK ranked k).map grades.get).map (gain fns)).take n).sum ≤
      (((idealGrades grades k).map (gain fns)).take n).sum := by
  have hideal : ((idealGrades grades k).map (gain fns)).take n =
      ((descendingGrades grades).map (gain fns)).take (min n k.toNat) := by
    rw [idealGrades, List.map_take, List.take_take, descendingGrades]
  have hfirst : (((topK ranked k).map grades.get).map (gain fns)).take n =
      ((((topK ranked k).take n).map grades.get)).map (gain fns) := by
    rw [List.map_take, List.map_take]
  have hnodup : ((topK ranked k).take n).Nodup :=
    (nodup_topK ranked k).sublist (List.take_sublist _ _)
  have hselection := (subperm_values grades hnodup).trans
    (List.mergeSort_perm (grades.values.filter (· > 0)) fun a b => b ≤ a).symm.subperm
  rw [hideal, hfirst, ← sum_gain_filter]
  apply sum_le_sum_take (subperm_map (gain fns) hselection)
  · exact (pairwise_descendingGrades grades).map (gain fns) fun _ _ h => gain_mono fns h
  · intro x hx
    obtain ⟨grade, -, rfl⟩ := List.mem_map.mp hx
    exact gain_nonneg fns grade
  · have hlength : ((topK ranked k).take n).length ≤ min n k.toNat := by
      rw [List.length_take, topK, List.length_take]
      omega
    rw [List.length_map]
    refine (List.length_filter_le _ _).trans ?_
    rwa [List.length_map]

theorem dcgAtK_le_idcgAtK (fns : GainFunctions K) (ranked : List String) (grades : Grades K)
    (k : ℤ) : dcgAtK fns ranked grades k ≤ idcgAtK fns grades k := by
  rw [dcgAtK, idcgAtK, dcg_eq, dcg_eq]
  exact discountedSum_le_of_prefix (discount_nonneg fns (le_refl 1))
    (discount_antitone fns (le_refl 1)) (sum_take_gain_le fns ranked grades k)

theorem ndcgAtK_mem_Icc (fns : GainFunctions K) (ranked : List String) (grades : Grades K)
    (k : ℤ) : ndcgAtK fns ranked grades k ∈ Set.Icc (0 : K) 1 := by
  unfold ndcgAtK
  split
  · simp
  · split
    · simp
    · exact ⟨div_nonneg (dcg_nonneg fns _) (dcg_nonneg fns _),
        div_le_one_of_le₀ (dcgAtK_le_idcgAtK fns ranked grades k) (dcg_nonneg fns _)⟩

/-! ## All metrics -/

/-- The metrics of a ranking at a cutoff, against the relevant documents and their grades. -/
structure MetricsSpec (fns : GainFunctions K) (ranked relevant : List String) (grades : Grades K)
    (k : ℤ) : Prop where
  recall_mem : recallAtK ranked relevant k ∈ Set.Icc (0 : ℚ) 1
  hit_mem : hitAtK ranked relevant k ∈ Set.Icc (0 : ℚ) 1
  mrr_mem : mrr ranked relevant ∈ Set.Icc (0 : ℚ) 1
  ndcg_mem : ndcgAtK fns ranked grades k ∈ Set.Icc (0 : K) 1
  dcg_le_ideal : dcgAtK fns ranked grades k ≤ idcgAtK fns grades k
  recall_mono : ∀ k', k ≤ k' → recallAtK ranked relevant k ≤ recallAtK ranked relevant k'
  hit_mono : ∀ k', k ≤ k' → hitAtK ranked relevant k ≤ hitAtK ranked relevant k'
  unchanged : ∀ kept, RemovesRepeats ranked kept →
    recallAtK kept relevant k = recallAtK ranked relevant k ∧
    hitAtK kept relevant k = hitAtK ranked relevant k ∧
    mrr kept relevant = mrr ranked relevant ∧
    ndcgAtK fns kept grades k = ndcgAtK fns ranked grades k
  /-- All repeats can be removed, and then no document stands twice in the ranking. -/
  deduplicated : RemovesRepeats ranked (dedupePreserveOrder ranked) ∧
    (dedupePreserveOrder ranked).Nodup

/-- For every ranking, set of relevant documents, map of grades and cutoff, the metrics lie between
    `0` and `1`, do not fall when the cutoff grows, and are unchanged when repeats are removed. -/
theorem rankingMetrics_wellBehaved (fns : GainFunctions K) (ranked relevant : List String)
    (grades : Grades K) (k : ℤ) : MetricsSpec fns ranked relevant grades k where
  recall_mem := recallAtK_mem_Icc ranked relevant k
  hit_mem := hitAtK_mem_Icc ranked relevant k
  mrr_mem := mrr_mem_Icc ranked relevant
  ndcg_mem := ndcgAtK_mem_Icc fns ranked grades k
  dcg_le_ideal := dcgAtK_le_idcgAtK fns ranked grades k
  recall_mono _ h := recallAtK_mono ranked relevant h
  hit_mono _ h := hitAtK_mono ranked relevant h
  unchanged kept h := by
    have htop : topK kept k = topK ranked k := by rw [topK, topK, h.dedupe_eq]
    refine ⟨?_, ?_, ?_, ?_⟩
    · rw [recallAtK, recallAtK, htop]
    · rw [hitAtK, hitAtK, htop]
    · rw [mrr, mrr, h.dedupe_eq]
    · rw [ndcgAtK, ndcgAtK, dcgAtK, dcgAtK, htop]
  deduplicated := ⟨removesRepeats_dedupe ranked, nodup_dedupePreserveOrder ranked⟩

/-- The metrics of an evaluation's row lie between `0` and `1`. -/
theorem scoreCaseMode_mem_Icc (fns : GainFunctions K) (evalCase : EvalCase K) (mode : String)
    (k : ℤ) (ranked : List String) :
    let row := scoreCaseMode fns evalCase mode k ranked
    row.recallAtK ∈ Set.Icc (0 : ℚ) 1 ∧ row.mrr ∈ Set.Icc (0 : ℚ) 1 ∧
      row.ndcgAtK ∈ Set.Icc (0 : K) 1 :=
  ⟨recallAtK_mem_Icc _ _ _, mrr_mem_Icc _ _, ndcgAtK_mem_Icc _ _ _ _⟩

end

/-- The functions of the code over the reals. -/
noncomputable def realGainFunctions : GainFunctions ℝ where
  pow2 grade := 2 ^ grade
  log2 n := Real.logb 2 n
  pow2_zero := Real.rpow_zero 2
  pow2_mono _ _ h := Real.rpow_le_rpow_of_exponent_le one_le_two h
  log2_pos n hn := Real.logb_pos one_lt_two (by exact_mod_cast (by omega : 1 < n))
  log2_mono m n hm hmn := Real.logb_le_logb_of_le one_lt_two
    (by exact_mod_cast (by omega : 0 < m)) (by exact_mod_cast hmn)

/-- A ranking that repeats its first document, with the functions of the code. -/
theorem rankingMetrics_wellBehaved_real :
    MetricsSpec realGainFunctions ["a", "a", "b", "c"] ["a", "b"]
      (gradesOf ["a", "b"] (2 : ℝ)) 2 :=
  rankingMetrics_wellBehaved realGainFunctions _ _ _ 2

-- the repeat of `a` does not take the place of `b`
example : recallAtK ["a", "a", "b", "c"] ["a", "b"] 2 = 1 := by decide +kernel

end Inherent
