import Mathlib

/-!
# Maximal runs of a list

The runs of a list lie between the elements that separate them; none of them is empty.
-/

namespace MaximalRuns

variable {α : Type*} (sep : α → Bool)

/-- The maximal runs of elements that are no separators. -/
def runs (l : List α) : List (List α) := (l.splitOnP sep).filter fun run => !run.isEmpty

variable {sep}

@[simp] theorem runs_nil : runs sep [] = [] := rfl

theorem runs_append_cons (l r : List α) {a : α} (ha : sep a = true) :
    runs sep (l ++ a :: r) = runs sep l ++ runs sep r := by
  rw [runs, List.splitOnP_append_cons l r ha, List.filter_append]
  rfl

/-- Any number of separators cuts. -/
theorem runs_append_append {s : List α} (hne : s ≠ []) (hs : ∀ a ∈ s, sep a = true)
    (l r : List α) : runs sep (l ++ s ++ r) = runs sep l ++ runs sep r := by
  induction s generalizing l with
  | nil => exact absurd rfl hne
  | cons a s ih =>
    have ha := hs a List.mem_cons_self
    cases s with
    | nil => rw [List.append_assoc, List.singleton_append, runs_append_cons l r ha]
    | cons b s =>
      have hrest := ih (by simp) (fun c hc => hs c (List.mem_cons_of_mem _ hc)) (l ++ [a])
      rw [runs_append_cons l [] ha, runs_nil, List.append_nil] at hrest
      rw [← hrest]
      simp

theorem runs_of_forall {l : List α} (hne : l ≠ []) (h : ∀ a ∈ l, sep a = false) :
    runs sep l = [l] := by
  rw [runs, List.splitOnP_eq_singleton h]
  simpa using hne

/-- A list with separators only at its ends is at most one run. -/
theorem runs_of_interior {l : List α} (h : ∀ a ∈ l.tail.dropLast, sep a = false) :
    runs sep l = [l.filter fun a => !sep a].filter fun run => !run.isEmpty := by
  -- without separators there is one run, if any
  have hinner : ∀ m : List α, (∀ a ∈ m, sep a = false) →
      runs sep m = [m.filter fun a => !sep a].filter fun run => !run.isEmpty := by
    intro m hm
    have hkept : m.filter (fun a => !sep a) = m :=
      List.filter_eq_self.mpr fun a ha => by simp [hm a ha]
    rw [hkept]
    cases m with
    | nil => rfl
    | cons a m => rw [runs_of_forall (by simp) hm]; rfl
  -- a separator at the end is cut off
  have hlast : ∀ m : List α, (∀ a ∈ m.dropLast, sep a = false) →
      runs sep m = [m.filter fun a => !sep a].filter fun run => !run.isEmpty := by
    intro m hm
    rcases List.eq_nil_or_concat m with rfl | ⟨front, last, rfl⟩
    · rfl
    · rw [List.concat_eq_append] at hm ⊢
      rw [List.dropLast_concat] at hm
      cases hsep : sep last with
      | true => simpa [hsep, runs_append_cons front [] hsep] using hinner front hm
      | false =>
        refine hinner _ fun a ha => ?_
        rcases List.mem_append.mp ha with ha | ha
        · exact hm a ha
        · exact List.mem_singleton.mp ha ▸ hsep
  cases l with
  | nil => rfl
  | cons a l =>
    rw [List.tail_cons] at h
    cases hsep : sep a with
    | true =>
      have hcut : runs sep ([] ++ a :: l) = runs sep [] ++ runs sep l := runs_append_cons [] l hsep
      rw [List.nil_append, runs_nil, List.nil_append] at hcut
      simpa [hsep, hcut] using hlast l h
    | false =>
      refine hlast (a :: l) fun b hb => ?_
      cases l with
      | nil => cases hb
      | cons c l =>
        rcases List.mem_cons.mp hb with rfl | hb
        · exact hsep
        · exact h b hb

/-- The pieces of a list are where they were. -/
theorem infix_of_mem_splitOnP {l piece : List α} (h : piece ∈ l.splitOnP sep) : piece <:+: l := by
  suffices hall : (∀ a ∈ (l.splitOnP sep).head?, a <+: l) ∧ ∀ a ∈ l.splitOnP sep, a <:+: l from
    hall.2 piece h
  clear h
  induction l with
  | nil => simp
  | cons a l ih =>
    rw [List.splitOnP_cons_eq_if_modifyHead]
    cases ha : sep a with
    | true =>
      refine ⟨by simp, fun b hb => ?_⟩
      rcases List.mem_cons.mp hb with rfl | hb
      · exact List.nil_infix
      · exact (ih.2 b hb).trans (List.suffix_cons a l).isInfix
    | false =>
      cases hsplit : l.splitOnP sep with
      | nil => exact absurd hsplit (List.splitOnP_ne_nil sep l)
      | cons first rest =>
        rw [hsplit] at ih
        have hfirst : a :: first <+: a :: l := by
          simpa using ih.1 first rfl
        refine ⟨by simpa using hfirst, fun b hb => ?_⟩
        rcases List.mem_cons.mp hb with rfl | hb
        · exact hfirst.isInfix
        · exact (ih.2 b (List.mem_cons_of_mem _ hb)).trans (List.suffix_cons a l).isInfix

end MaximalRuns
