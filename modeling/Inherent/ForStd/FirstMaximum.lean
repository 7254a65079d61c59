import Mathlib

/-!
# The first maximum of a list

A loop that remembers the best item so far, and takes another one only if it is better, ends
with the first item of the greatest score, or with none if no score is positive.
-/

namespace FirstMaximum

variable {α : Type*} {score : α → ℕ} {l : List α} {a b : α}

/-- The item is in the list, those before it score less and those behind it no more. -/
def IsFirst (score : α → ℕ) (l : List α) (a : α) : Prop :=
  ∃ before after, l = before ++ a :: after ∧ (∀ x ∈ before, score x < score a) ∧
    ∀ x ∈ after, score x ≤ score a

/-- One step of the loop, with the best item so far and its score. -/
def step (score : α → ℕ) (best : Option α × ℕ) (a : α) : Option α × ℕ :=
  if score a > best.2 then (some a, score a) else best

theorem IsFirst.mem (h : IsFirst score l a) : a ∈ l := by
  obtain ⟨before, after, rfl, -, -⟩ := h
  exact List.mem_append_right _ List.mem_cons_self

theorem IsFirst.le (h : IsFirst score l a) (hb : b ∈ l) : score b ≤ score a := by
  obtain ⟨before, after, rfl, hbefore, hafter⟩ := h
  obtain hb | hb := List.mem_append.mp hb
  · exact (hbefore b hb).le
  · obtain rfl | hb := List.mem_cons.mp hb
    · exact le_refl _
    · exact hafter b hb

/-- An item behind the others that is no better. -/
theorem IsFirst.concat (h : IsFirst score l a) (hb : score b ≤ score a) :
    IsFirst score (l ++ [b]) a := by
  obtain ⟨before, after, rfl, hbefore, hafter⟩ := h
  refine ⟨before, after ++ [b], by simp, hbefore, fun x hx => ?_⟩
  obtain hx | hx := List.mem_append.mp hx
  · exact hafter x hx
  · rw [List.mem_singleton.mp hx]
    exact hb

/-- A list has one first maximum. -/
theorem IsFirst.unique (ha : IsFirst score l a) (hb : IsFirst score l b) : a = b := by
  have hle := hb.le ha.mem
  have hge := ha.le hb.mem
  obtain ⟨before, after, hl, hbefore, -⟩ := ha
  obtain ⟨before', after', hl', hbefore', -⟩ := hb
  -- neither of the two stands before the other, as their scores are the same
  obtain ⟨mid, hmid, hrest⟩ | ⟨mid, hmid, hrest⟩ :=
    List.append_eq_append_iff.mp (hl.symm.trans hl')
  · cases mid with
    | nil => exact (List.cons.inj hrest).1
    | cons x mid =>
      obtain ⟨rfl, -⟩ := List.cons.inj hrest
      have := hbefore' a (by simp [hmid])
      omega
  · cases mid with
    | nil => exact (List.cons.inj hrest).1.symm
    | cons x mid =>
      obtain ⟨rfl, -⟩ := List.cons.inj hrest
      have := hbefore b (by simp [hmid])
      omega

/-- What the loop ends with. -/
theorem foldl_step (score : α → ℕ) (l : List α) :
    (l.foldl (step score) (none, 0) = (none, 0) ∧ ∀ a ∈ l, score a = 0) ∨
      ∃ a, l.foldl (step score) (none, 0) = (some a, score a) ∧ 0 < score a ∧
        IsFirst score l a := by
  induction l using List.reverseRecOn with
  | nil => exact Or.inl ⟨rfl, fun _ h => absurd h List.not_mem_nil⟩
  | append_singleton l b ih =>
    rw [List.foldl_append, List.foldl_cons, List.foldl_nil]
    obtain ⟨hfold, hzero⟩ | ⟨a, hfold, hpos, hfirst⟩ := ih
    · by_cases hb : score b > 0
      · right
        refine ⟨b, by rw [hfold, step, if_pos hb], hb, l, [], rfl, fun x hx => ?_, by simp⟩
        rw [hzero x hx]
        exact hb
      · left
        refine ⟨by rw [hfold, step, if_neg hb], fun x hx => ?_⟩
        obtain hx | hx := List.mem_append.mp hx
        · exact hzero x hx
        · rw [List.mem_singleton.mp hx]
          omega
    · right
      by_cases hb : score b > score a
      · refine ⟨b, by rw [hfold, step, if_pos hb], by omega, l, [], rfl, fun x hx => ?_, by simp⟩
        exact lt_of_le_of_lt (hfirst.le hx) hb
      · exact ⟨a, by rw [hfold, step, if_neg hb], hpos, hfirst.concat (by omega)⟩

end FirstMaximum
