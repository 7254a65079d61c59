import Mathlib

/-!
# The first occurrences in a list

`List.eraseDups` keeps the first occurrence of each element.  It commutes with filters and keeps
the order in which elements occur first.
-/

namespace FirstOccurrence

variable {α : Type*} [DecidableEq α]

omit [DecidableEq α] in
theorem length_filter_lt_cons (p : α → Bool) (a : α) (l : List α) :
    (l.filter p).length < (a :: l).length := by
  have := List.length_filter_le p l
  rw [List.length_cons]
  omega

/-- Erasing duplicates commutes with a filter. -/
theorem eraseDups_filter (p : α → Bool) (l : List α) :
    (l.filter p).eraseDups = l.eraseDups.filter p := by
  -- on the length: `eraseDups` goes on with the tail without the copies of its head
  induction h : l.length using Nat.strongRecOn generalizing l with
  | _ n ih =>
    cases l with
    | nil => rfl
    | cons a l =>
      have hlt : (l.filter fun b => !b == a).length < n := h ▸ length_filter_lt_cons _ a l
      have hrest := ih _ hlt (l.filter fun b => !b == a) rfl
      rw [List.eraseDups_cons]
      by_cases hp : p a = true
      · rw [List.filter_cons_of_pos hp, List.filter_cons_of_pos hp, List.eraseDups_cons,
          ← hrest, List.filter_filter, List.filter_filter]
        simp only [Bool.and_comm]
      · rw [List.filter_cons_of_neg hp, List.filter_cons_of_neg hp, ← hrest,
          List.filter_filter]
        congr 1
        apply List.filter_congr
        intro b _
        -- an element that passes is not `a`
        by_cases hb : b = a
        · subst hb
          simp [hp]
        · simp [hb]

theorem nodup_eraseDups (l : List α) : l.eraseDups.Nodup := by
  induction h : l.length using Nat.strongRecOn generalizing l with
  | _ n ih =>
    cases l with
    | nil => exact List.nodup_nil
    | cons a l =>
      have hlt : (l.filter fun b => !b == a).length < n := h ▸ length_filter_lt_cons _ a l
      rw [List.eraseDups_cons, List.nodup_cons]
      refine ⟨?_, ih _ hlt (l.filter fun b => !b == a) rfl⟩
      rw [List.mem_eraseDups, List.mem_filter]
      simp

/-- What comes first behind a head that is not it comes first with the head. -/
theorem idxOf_cons_lt_iff {c a b : α} {l : List α} :
    (c :: l).idxOf a < (c :: l).idxOf b ↔ c ≠ b ∧ (c = a ∨ l.idxOf a < l.idxOf b) := by
  by_cases hb : c = b
  · subst hb
    simp
  · by_cases ha : c = a
    · subst ha
      simp [List.idxOf_cons_ne l hb, hb]
    · simp [List.idxOf_cons_ne l hb, List.idxOf_cons_ne l ha, ha, hb]

/-- A filter keeps the order of the first occurrences. -/
theorem idxOf_filter_lt_iff {p : α → Bool} {l : List α} {a b : α} (ha : p a = true)
    (hb : p b = true) : (l.filter p).idxOf a < (l.filter p).idxOf b ↔ l.idxOf a < l.idxOf b := by
  induction l with
  | nil => rfl
  | cons c l ih =>
    rw [idxOf_cons_lt_iff]
    by_cases hc : p c = true
    · rw [List.filter_cons_of_pos hc, idxOf_cons_lt_iff, ih]
    · have hca : c ≠ a := fun h => hc (h ▸ ha)
      have hcb : c ≠ b := fun h => hc (h ▸ hb)
      rw [List.filter_cons_of_neg hc, ih]
      simp [hca, hcb]

/-- Erasing duplicates keeps the order of the first occurrences. -/
theorem idxOf_eraseDups_lt_iff {l : List α} {a b : α} :
    l.eraseDups.idxOf a < l.eraseDups.idxOf b ↔ l.idxOf a < l.idxOf b := by
  induction h : l.length using Nat.strongRecOn generalizing l with
  | _ n ih =>
    cases l with
    | nil => rfl
    | cons c l =>
      have hlt : (l.filter fun d => !d == c).length < n := h ▸ length_filter_lt_cons _ c l
      rw [List.eraseDups_cons, idxOf_cons_lt_iff, idxOf_cons_lt_iff, ih _ hlt rfl]
      by_cases hca : c = a
      · simp [hca]
      · by_cases hcb : c = b
        · simp [hcb]
        · have ha : (!a == c) = true := by simpa using Ne.symm hca
          have hb : (!b == c) = true := by simpa using Ne.symm hcb
          rw [idxOf_filter_lt_iff (p := fun d => !d == c) ha hb]

end FirstOccurrence
