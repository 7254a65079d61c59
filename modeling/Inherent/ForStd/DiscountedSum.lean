import Mathlib

/-!
# Discounted sums

The elements of a list are summed with weights that do not grow with the position.  A list whose
prefix sums are at most those of another has the smaller discounted sum, and no selection from a
descending list has a larger prefix sum than the list itself.
-/

namespace DiscountedSum

open Finset

variable {K : Type*} [CommRing K]

/-- The sum of the elements of a list, each with the weight of its position. -/
def discountedSum (w : Nat → K) (l : List K) : K :=
  ∑ i ∈ range l.length, l.getD i 0 * w i

@[simp] theorem discountedSum_nil (w : Nat → K) : discountedSum w [] = 0 := rfl

theorem discountedSum_cons (w : Nat → K) (x : K) (l : List K) :
    discountedSum w (x :: l) = discountedSum (fun i => w (i + 1)) l + x * w 0 := by
  rw [discountedSum, List.length_cons, sum_range_succ']
  rfl

/-- Positions behind the end of the list add nothing. -/
theorem discountedSum_eq_sum_range (w : Nat → K) {l : List K} {n : Nat} (hn : l.length ≤ n) :
    discountedSum w l = ∑ i ∈ range n, l.getD i 0 * w i := by
  apply sum_subset (range_subset_range.mpr hn)
  intro i _ hi
  rw [List.getD_eq_default _ _ (by simpa using hi), zero_mul]

theorem sum_range_getD (l : List K) (n : Nat) :
    ∑ i ∈ range n, l.getD i 0 = (l.take n).sum := by
  induction n generalizing l with
  | zero => rfl
  | succ n ih =>
    cases l with
    | nil => simp
    | cons x l =>
      rw [sum_range_succ', List.take_succ_cons, List.sum_cons, ← ih l]
      simp only [List.getD_cons_succ, List.getD_cons_zero]
      exact add_comm _ _

variable [LinearOrder K] [IsStrictOrderedRing K]

theorem discountedSum_nonneg {w : Nat → K} (hw : ∀ i, 0 ≤ w i) {l : List K}
    (hl : ∀ x ∈ l, 0 ≤ x) : 0 ≤ discountedSum w l := by
  apply sum_nonneg
  intro i hi
  rw [mem_range] at hi
  rw [List.getD_eq_getElem _ _ hi]
  exact mul_nonneg (hl _ (List.getElem_mem hi)) (hw i)

/-- Summation by parts: what the prefix sums are ahead by is worth the weight of the next position
    at least. -/
theorem sum_mul_le_sum_mul {w : Nat → K} (hw : ∀ i, 0 ≤ w i) (hanti : Antitone w)
    {f g : Nat → K} (hsums : ∀ n, ∑ i ∈ range n, f i ≤ ∑ i ∈ range n, g i) (n : Nat) :
    ∑ i ∈ range n, f i * w i ≤ ∑ i ∈ range n, g i * w i := by
  have hahead : ∀ n, (∑ i ∈ range n, g i - ∑ i ∈ range n, f i) * w n ≤
      ∑ i ∈ range n, g i * w i - ∑ i ∈ range n, f i * w i := by
    intro n
    induction n with
    | zero => simp
    | succ n ih =>
      calc (∑ i ∈ range (n + 1), g i - ∑ i ∈ range (n + 1), f i) * w (n + 1)
          ≤ (∑ i ∈ range (n + 1), g i - ∑ i ∈ range (n + 1), f i) * w n :=
            mul_le_mul_of_nonneg_left (hanti (Nat.le_succ n)) (sub_nonneg.mpr (hsums (n + 1)))
        _ = (∑ i ∈ range n, g i - ∑ i ∈ range n, f i) * w n + (g n * w n - f n * w n) := by
            rw [sum_range_succ, sum_range_succ]
            ring
        _ ≤ (∑ i ∈ range n, g i * w i - ∑ i ∈ range n, f i * w i) + (g n * w n - f n * w n) := by
            gcongr
        _ = ∑ i ∈ range (n + 1), g i * w i - ∑ i ∈ range (n + 1), f i * w i := by
            rw [sum_range_succ, sum_range_succ]
            ring
  have hnonneg := mul_nonneg (sub_nonneg.mpr (hsums n)) (hw n)
  exact sub_nonneg.mp (hnonneg.trans (hahead n))

theorem discountedSum_le_of_prefix {w : Nat → K} (hw : ∀ i, 0 ≤ w i) (hanti : Antitone w)
    {l m : List K} (hsums : ∀ n, (l.take n).sum ≤ (m.take n).sum) :
    discountedSum w l ≤ discountedSum w m := by
  rw [discountedSum_eq_sum_range w (le_max_left l.length m.length),
    discountedSum_eq_sum_range w (le_max_right l.length m.length)]
  apply sum_mul_le_sum_mul hw hanti
  intro n
  rw [sum_range_getD, sum_range_getD]
  exact hsums n

theorem subperm_map {α β : Type*} (f : α → β) {l m : List α} (h : l.Subperm m) :
    (l.map f).Subperm (m.map f) := by
  obtain ⟨l', hperm, hsub⟩ := h
  exact ⟨l'.map f, hperm.map f, hsub.map f⟩

/-- No `n` elements of a descending list have a larger sum than its first `n`. -/
theorem sum_le_sum_take {l m : List K} (hsub : l.Subperm m) (hdesc : m.Pairwise (· ≥ ·))
    (hm : ∀ x ∈ m, 0 ≤ x) {n : Nat} (hn : l.length ≤ n) : l.sum ≤ (m.take n).sum := by
  induction m generalizing l n with
  | nil =>
    rw [List.subperm_nil.mp hsub]
    simp
  | cons y m ih =>
    obtain ⟨hy, hdesc⟩ := List.pairwise_cons.mp hdesc
    have hm' : ∀ x ∈ m, 0 ≤ x := fun x hx => hm x (List.mem_cons_of_mem y hx)
    -- the list without an element that is at most `y` is a selection from the rest
    have hwithout {x : K} {rest : List K} (hperm : l.Perm (x :: rest)) (hx : x ≤ y)
        (hrest : rest.Subperm m) : l.sum ≤ ((y :: m).take n).sum := by
      obtain ⟨n, rfl⟩ : ∃ k, n = k + 1 :=
        ⟨n - 1, by rw [hperm.length_eq, List.length_cons] at hn; omega⟩
      rw [hperm.sum_eq, List.sum_cons, List.take_succ_cons, List.sum_cons]
      rw [hperm.length_eq, List.length_cons] at hn
      exact add_le_add hx (ih hrest hdesc hm' (Nat.le_of_succ_le_succ hn))
    by_cases hmem : y ∈ l
    · apply hwithout (List.perm_cons_erase hmem) le_rfl
      simpa using hsub.erase y
    · cases l with
      | nil => exact List.sum_nonneg fun x hx => hm x (List.mem_of_mem_take hx)
      | cons x l =>
        have hsub' : (x :: l).Subperm m := by
          simpa [List.erase_of_not_mem hmem] using hsub.erase y
        exact hwithout (List.Perm.refl _) (hy x (hsub'.subset List.mem_cons_self))
          ((List.sublist_cons_self x l).subperm.trans hsub')

end DiscountedSum
