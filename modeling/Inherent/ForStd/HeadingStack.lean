import Mathlib

/-!
# The stack of open headings

Headings of any depth come one after the other.  A heading closes every open heading that
is not shallower than itself, and is then open.  What is open below a depth are the nearest
shallower heading, the nearest one that is shallower than that, and so on.
-/

namespace HeadingStack

variable {α : Type*}

/-- The chain of the most recent headings of strictly decreasing depth above `level`, the
    deepest first; the headings come latest first. -/
def ancestors : List (Nat × α) → Nat → List (Nat × α)
  | [], _ => []
  | h :: history, level =>
    if h.1 < level then h :: ancestors history h.1 else ancestors history level

/-- What is open after the headings, the deepest first; the headings come latest first. -/
def opened : List (Nat × α) → List (Nat × α)
  | [] => []
  | h :: history => h :: (opened history).filter fun g => g.1 < h.1

/-- What is open above a depth are the ancestors of a heading of this depth. -/
theorem filter_opened (history : List (Nat × α)) (level : Nat) :
    (opened history).filter (fun g => g.1 < level) = ancestors history level := by
  induction history generalizing level with
  | nil => rfl
  | cons h history ih =>
    rw [opened, ancestors]
    by_cases hlt : h.1 < level
    · have hfilter : ((opened history).filter fun g => g.1 < h.1).filter (fun g => g.1 < level) =
          (opened history).filter fun g => g.1 < h.1 := by
        rw [List.filter_eq_self]
        intro g hg
        have := (List.mem_filter.mp hg).2
        simp only [decide_eq_true_eq] at this ⊢
        omega
      rw [List.filter_cons_of_pos (by simpa using hlt), hfilter, if_pos hlt, ih]
    · have hfilter : ((opened history).filter fun g => g.1 < h.1).filter (fun g => g.1 < level) =
          (opened history).filter fun g => g.1 < level := by
        rw [List.filter_filter]
        apply List.filter_congr
        intro g _
        have : g.1 < level → g.1 < h.1 := by omega
        simpa using this
      rw [List.filter_cons_of_neg (by simpa using hlt), hfilter, if_neg hlt, ih]

/-- The open headings are deeper and deeper. -/
theorem pairwise_opened (history : List (Nat × α)) :
    (opened history).Pairwise fun g h => h.1 < g.1 := by
  induction history with
  | nil => exact .nil
  | cons h history ih =>
    rw [opened, List.pairwise_cons]
    exact ⟨fun g hg => by simpa using (List.mem_filter.mp hg).2, ih.filter _⟩

/-- The ancestors are shallower and shallower. -/
theorem pairwise_ancestors (history : List (Nat × α)) (level : Nat) :
    (ancestors history level).Pairwise fun g h => h.1 < g.1 := by
  rw [← filter_opened]
  exact (pairwise_opened history).filter _

/-- Headings that are deeper than `bound` are no ancestors of one that is not. -/
theorem ancestors_filter {history : List (Nat × α)} {level bound : Nat} (h : level ≤ bound) :
    ancestors (history.filter fun g => g.1 ≤ bound) level = ancestors history level := by
  induction history generalizing level with
  | nil => rfl
  | cons g history ih =>
    by_cases hg : g.1 ≤ bound
    · rw [List.filter_cons_of_pos (by simpa using hg), ancestors, ancestors, ih h, ih hg]
    · rw [List.filter_cons_of_neg (by simpa using hg), ancestors, if_neg (by omega), ih h]

end HeadingStack
