import Mathlib

/-!
# Merging intervals

Closed intervals of integers, sorted by their lower ends, where overlapping and adjacent ones are
merged into one.
-/

namespace IntervalMerge

/-- An interval from its first to its second component; it may be empty. -/
abbrev Span := ℤ × ℤ

def Covers (s : Span) (x : ℤ) : Prop := s.1 ≤ x ∧ x ≤ s.2

instance (s : Span) (x : ℤ) : Decidable (Covers s x) := inferInstanceAs (Decidable (_ ∧ _))

/-- The loop over sorted spans with the current one. -/
def mergeFrom (cur : Span) : List Span → List Span
  | [] => [cur]
  | s :: rest =>
    if s.1 ≤ cur.2 + 1 then mergeFrom (cur.1, max cur.2 s.2) rest else cur :: mergeFrom s rest

/-- The merged spans. -/
def mergeSpans : List Span → List Span
  | [] => []
  | s :: rest => mergeFrom s rest

/-- Spans in the order of their lower ends. -/
def Ascending (spans : List Span) : Prop := spans.Pairwise fun s t => s.1 ≤ t.1

/-- Spans in order, with a gap between any two of them. -/
def Separated (spans : List Span) : Prop :=
  spans.Pairwise fun s t => s.1 ≤ t.1 ∧ s.2 + 1 < t.1

/-- Two spans that overlap or touch have the points of their hull. -/
theorem covers_merge {cur s : Span} (hle : cur.1 ≤ s.1) (htouch : s.1 ≤ cur.2 + 1) (x : ℤ) :
    Covers (cur.1, max cur.2 s.2) x ↔ Covers cur x ∨ Covers s x := by
  unfold Covers
  constructor
  · rintro ⟨hlow, hhigh⟩
    by_cases hx : x ≤ cur.2
    · exact Or.inl ⟨hlow, hx⟩
    · have hx' : x ≤ s.2 := by
        simpa [hx] using hhigh
      exact Or.inr ⟨by omega, hx'⟩
  · rintro (⟨hlow, hhigh⟩ | ⟨hlow, hhigh⟩)
    · exact ⟨hlow, le_max_of_le_left hhigh⟩
    · exact ⟨by omega, le_max_of_le_right hhigh⟩

/-- The merged span stands before what the second one stood before. -/
theorem ascending_merge {cur s : Span} {rest : List Span} (h : Ascending (cur :: s :: rest)) :
    Ascending ((cur.1, max cur.2 s.2) :: rest) := by
  obtain ⟨hcur, hrest⟩ := List.pairwise_cons.mp h
  exact List.pairwise_cons.mpr ⟨fun t ht => hcur t (List.mem_cons_of_mem s ht), hrest.tail⟩

/-- Merging keeps the points that are covered. -/
theorem covers_mergeFrom {cur : Span} {rest : List Span} (h : Ascending (cur :: rest)) (x : ℤ) :
    (∃ s ∈ mergeFrom cur rest, Covers s x) ↔ ∃ s ∈ cur :: rest, Covers s x := by
  induction rest generalizing cur with
  | nil => rfl
  | cons s rest ih =>
    obtain ⟨hcur, hrest⟩ := List.pairwise_cons.mp h
    have hle : cur.1 ≤ s.1 := hcur s List.mem_cons_self
    unfold mergeFrom
    split
    · next htouch =>
      rw [ih (ascending_merge h)]
      simp only [List.mem_cons, exists_eq_or_imp, covers_merge hle htouch, or_assoc]
    · simp only [List.mem_cons, exists_eq_or_imp] at ih ⊢
      rw [ih hrest]

theorem lower_le_of_mem_mergeFrom {cur : Span} {rest : List Span}
    (h : Ascending (cur :: rest)) {t : Span} (ht : t ∈ mergeFrom cur rest) : cur.1 ≤ t.1 := by
  induction rest generalizing cur with
  | nil => rw [List.mem_singleton.mp ht]
  | cons s rest ih =>
    obtain ⟨hcur, hrest⟩ := List.pairwise_cons.mp h
    unfold mergeFrom at ht
    split at ht
    · have hle := ih (ascending_merge h) ht
      exact hle
    · rcases List.mem_cons.mp ht with rfl | ht
      · exact le_refl _
      · exact (hcur s List.mem_cons_self).trans (ih hrest ht)

/-- Merged spans are separated. -/
theorem separated_mergeFrom {cur : Span} {rest : List Span} (h : Ascending (cur :: rest)) :
    Separated (mergeFrom cur rest) := by
  induction rest generalizing cur with
  | nil => exact List.pairwise_singleton _ _
  | cons s rest ih =>
    obtain ⟨hcur, hrest⟩ := List.pairwise_cons.mp h
    unfold mergeFrom
    split
    · exact ih (ascending_merge h)
    · next hgap =>
      refine List.pairwise_cons.mpr ⟨fun t ht => ?_, ih hrest⟩
      have hst := lower_le_of_mem_mergeFrom hrest ht
      exact ⟨(hcur s List.mem_cons_self).trans hst, by omega⟩

theorem mergeFrom_ne_nil (cur : Span) (rest : List Span) : mergeFrom cur rest ≠ [] := by
  induction rest generalizing cur with
  | nil => exact List.cons_ne_nil _ _
  | cons s rest ih =>
    unfold mergeFrom
    split
    · exact ih _
    · exact List.cons_ne_nil _ _

@[simp] theorem mergeSpans_eq_nil_iff {spans : List Span} : mergeSpans spans = [] ↔ spans = [] := by
  cases spans with
  | nil => rfl
  | cons s rest => simp [mergeSpans, mergeFrom_ne_nil]

theorem covers_mergeSpans {spans : List Span} (h : Ascending spans) (x : ℤ) :
    (∃ s ∈ mergeSpans spans, Covers s x) ↔ ∃ s ∈ spans, Covers s x := by
  cases spans with
  | nil => rfl
  | cons s rest => exact covers_mergeFrom h x

theorem separated_mergeSpans {spans : List Span} (h : Ascending spans) :
    Separated (mergeSpans spans) := by
  cases spans with
  | nil => exact List.Pairwise.nil
  | cons s rest => exact separated_mergeFrom h

end IntervalMerge
