import Inherent.ForStd.RunPattern
import Inherent.ForStd.Substitution

/-!
# Collapsed runs

Every run of elements of a class is replaced by one element of the class.  What stands between the
runs is kept, and no two elements of the class stand side by side afterwards.
-/

namespace CollapsedRuns

open Substitution

variable {α : Type*} (p : α → Bool)

/-- The runs of elements of the class. -/
def runs : Matcher α where
  find _ xs := if (xs.takeWhile p).length = 0 then none else some (xs.takeWhile p).length
  bounds prev xs n h := by
    split at h
    · cases h
    · cases h
      exact ⟨Nat.pos_of_ne_zero ‹_›, (List.takeWhile_prefix p).length_le⟩

/-- Every run is replaced by `b`. -/
def collapse (b : α) (l : List α) : List α := (runs p).sub [b] l

variable {p} {b : α}

@[simp] theorem collapse_nil : collapse p b [] = [] := by
  rw [collapse, Matcher.sub, Matcher.scan_nil, shown_nil]

/-- The character before a position does not matter. -/
theorem scan_runs (repl : List α → List α) (prev : Option α) (xs : List α) :
    (runs p).scan repl 0 prev xs = (runs p).scan repl 0 none xs := by
  cases xs with
  | nil => rw [Matcher.scan_nil, Matcher.scan_nil]
  | cons a xs =>
    rw [Matcher.scan, Matcher.scan]
    rfl

theorem collapse_cons_of_neg {a : α} (ha : p a = false) (l : List α) :
    collapse p b (a :: l) = a :: collapse p b l := by
  have hfind : (runs p).find none (a :: l) = none := by simp [runs, ha]
  rw [collapse, Matcher.sub, Matcher.scan_kept _ _ hfind, scan_runs]
  rfl

theorem collapse_cons_of_pos {a : α} (ha : p a = true) (l : List α) :
    collapse p b (a :: l) = b :: collapse p b (l.dropWhile p) := by
  have hfind : (runs p).find none (a :: l) = some ((l.takeWhile p).length + 1) := by
    simp [runs, ha]
  rw [collapse, Matcher.sub, Matcher.scan_mark _ _ hfind, List.drop_succ_cons, scan_runs,
    ← RunPattern.dropWhile_eq_drop]
  rfl

/-- A run goes on. -/
theorem collapse_cons_cons {a c : α} (ha : p a = true) (hc : p c = true) (l : List α) :
    collapse p b (a :: c :: l) = collapse p b (c :: l) := by
  rw [collapse_cons_of_pos ha, collapse_cons_of_pos hc, List.dropWhile_cons_of_pos hc]

/-- A run ends. -/
theorem collapse_cons_of_head {a : α} (ha : p a = true) {l : List α}
    (hl : ∀ c ∈ l.head?, p c = false) : collapse p b (a :: l) = b :: collapse p b l := by
  rw [collapse_cons_of_pos ha]
  cases l with
  | nil => rfl
  | cons c l => rw [List.dropWhile_cons_of_neg (by simp [hl c rfl])]

/-- The rounds of a collapse, element by element. -/
theorem collapse_induction {motive : List α → Prop} (nil : motive [])
    (keep : ∀ a l, p a = false → motive l → motive (a :: l))
    (run : ∀ a c l, p a = true → p c = true → motive (c :: l) → motive (a :: c :: l))
    (last : ∀ a l, p a = true → (∀ c ∈ l.head?, p c = false) → motive l → motive (a :: l))
    (l : List α) : motive l := by
  induction l with
  | nil => exact nil
  | cons a l ih =>
    -- an element is no part of a run, or the run goes on behind it, or ends with it
    cases ha : p a with
    | false => exact keep a l ha ih
    | true =>
      cases l with
      | nil => exact last a [] ha (fun c hc => by cases hc) ih
      | cons c l =>
        cases hc : p c with
        | true => exact run a c l ha hc ih
        | false =>
          refine last a (c :: l) ha (fun d hd => ?_) ih
          cases hd
          exact hc

/-- Elements of the class are all the same afterwards. -/
theorem eq_of_mem_collapse {l : List α} {c : α} (hc : c ∈ collapse p b l) (hp : p c = true) :
    c = b := by
  induction l using collapse_induction (p := p) with
  | nil => simp at hc
  | keep a l ha ih =>
    rw [collapse_cons_of_neg ha] at hc
    rcases List.mem_cons.mp hc with rfl | hc
    · rw [hp] at ha
      cases ha
    · exact ih hc
  | run a d l ha hd ih =>
    rw [collapse_cons_cons ha hd] at hc
    exact ih hc
  | last a l ha hl ih =>
    rw [collapse_cons_of_head ha hl] at hc
    rcases List.mem_cons.mp hc with rfl | hc
    · rfl
    · exact ih hc

theorem collapse_eq_nil_iff {l : List α} : collapse p b l = [] ↔ l = [] := by
  constructor
  · intro h
    cases l with
    | nil => rfl
    | cons a l =>
      cases ha : p a with
      | false =>
        rw [collapse_cons_of_neg ha] at h
        cases h
      | true =>
        rw [collapse_cons_of_pos ha] at h
        cases h
  · rintro rfl
    exact collapse_nil

/-- A collapsed list begins with what the list begins with. -/
theorem head?_collapse {l : List α} (hl : ∀ c ∈ l.head?, p c = false) :
    (collapse p b l).head? = l.head? := by
  cases l with
  | nil => rw [collapse_nil]
  | cons a l => rw [collapse_cons_of_neg (hl a rfl), List.head?_cons, List.head?_cons]

/-- No two elements of the class stand side by side. -/
theorem not_infix_collapse {l : List α} {c d : α} (hc : p c = true) (hd : p d = true) :
    ¬ [c, d] <:+: collapse p b l := by
  induction l using collapse_induction (p := p) with
  | nil => simp
  | keep a l ha ih =>
    rw [collapse_cons_of_neg ha, List.infix_cons_iff]
    rintro (⟨rest, hrest⟩ | hin)
    · rw [← (List.cons.inj hrest).1, hc] at ha
      cases ha
    · exact ih hin
  | run a e l ha he ih =>
    rw [collapse_cons_cons ha he]
    exact ih
  | last a l ha hl ih =>
    rw [collapse_cons_of_head ha hl, List.infix_cons_iff]
    rintro (⟨rest, hrest⟩ | hin)
    · -- the element behind the run is not of the class
      have hhead : (collapse p b l).head? = some d := by
        rw [← (List.cons.inj hrest).2]
        rfl
      rw [head?_collapse hl] at hhead
      have := hl d hhead
      rw [hd] at this
      cases this
    · exact ih hin

/-- A list without runs is left as it is. -/
theorem collapse_eq_self {l : List α} (hb : ∀ c ∈ l, p c = true → c = b)
    (hruns : ∀ c d, p c = true → p d = true → ¬ [c, d] <:+: l) : collapse p b l = l := by
  induction l using collapse_induction (p := p) with
  | nil => exact collapse_nil
  | keep a l ha ih =>
    rw [collapse_cons_of_neg ha,
      ih (fun c hc => hb c (List.mem_cons_of_mem _ hc)) fun c d hc hd hin =>
      hruns c d hc hd (hin.trans (List.suffix_cons a l).isInfix)]
  | run a c l ha hc ih => exact absurd ⟨[], l, rfl⟩ (hruns a c ha hc)
  | last a l ha hl ih =>
    rw [collapse_cons_of_head ha hl, ih (fun c hc => hb c (List.mem_cons_of_mem _ hc))
      fun c d hc hd hin => hruns c d hc hd (hin.trans (List.suffix_cons a l).isInfix),
      hb a List.mem_cons_self ha]

/-- What is not of the class is kept. -/
theorem filter_collapse {q : α → Bool} (hq : ∀ c, p c = true → q c = false) (hb : p b = true)
    (l : List α) : (collapse p b l).filter q = l.filter q := by
  induction l using collapse_induction (p := p) with
  | nil => rw [collapse_nil]
  | keep a l ha ih => rw [collapse_cons_of_neg ha, List.filter_cons, List.filter_cons, ih]
  | run a c l ha hc ih =>
    rw [collapse_cons_cons ha hc, ih, List.filter_cons_of_neg (l := c :: l) (by simp [hq a ha])]
  | last a l ha hl ih =>
    rw [collapse_cons_of_head ha hl, List.filter_cons_of_neg (by simp [hq b hb]), ih,
      List.filter_cons_of_neg (by simp [hq a ha])]

/-- A list is collapsed before and behind an element that is not of the class. -/
theorem collapse_append_cons {a : α} (ha : p a = false) (front back : List α) :
    collapse p b (front ++ a :: back) = collapse p b front ++ a :: collapse p b back := by
  induction front using collapse_induction (p := p) with
  | nil => rw [List.nil_append, collapse_cons_of_neg ha, collapse_nil, List.nil_append]
  | keep c front hc ih =>
    rw [List.cons_append, collapse_cons_of_neg hc, collapse_cons_of_neg hc, ih, List.cons_append]
  | run c d front hc hd ih =>
    rw [List.cons_append, List.cons_append, collapse_cons_cons hc hd, collapse_cons_cons hc hd,
      ← List.cons_append, ih]
  | last c front hc hfront ih =>
    rw [List.cons_append, collapse_cons_of_head hc, collapse_cons_of_head hc hfront, ih,
      List.cons_append]
    -- a run at the end of the front ends there
    intro d hd
    cases front with
    | nil =>
      cases hd
      exact ha
    | cons e front => exact hfront d hd

/-- An element that is not of the class stands where it stood, between collapsed lists. -/
theorem exists_of_collapse_eq {l front back : List α} {a : α} (hb : p b = true) (ha : p a = false)
    (h : collapse p b l = front ++ a :: back) :
    ∃ front' back', l = front' ++ a :: back' ∧ collapse p b front' = front ∧
      collapse p b back' = back := by
  induction l using collapse_induction (p := p) generalizing front with
  | nil => simp at h
  | keep c l hc ih =>
    rw [collapse_cons_of_neg hc] at h
    cases front with
    | nil =>
      obtain ⟨rfl, hback⟩ := List.cons.inj h
      exact ⟨[], l, rfl, collapse_nil, hback⟩
    | cons d front =>
      obtain ⟨rfl, hrest⟩ := List.cons.inj h
      obtain ⟨front', back', rfl, hfront, hback⟩ := ih hrest
      exact ⟨c :: front', back', rfl, by rw [collapse_cons_of_neg hc, hfront], hback⟩
  | run c d l hc hd ih =>
    rw [collapse_cons_cons hc hd] at h
    obtain ⟨front', back', hl, hfront, hback⟩ := ih h
    -- the element is not the one that the run goes on with
    cases front' with
    | nil =>
      rw [← (List.cons.inj hl).1, hd] at ha
      cases ha
    | cons e front' =>
      obtain ⟨rfl, hl⟩ := List.cons.inj hl
      exact ⟨c :: d :: front', back', by rw [hl]; rfl, by rw [collapse_cons_cons hc hd, hfront],
        hback⟩
  | last c l hc hl ih =>
    rw [collapse_cons_of_head hc hl] at h
    cases front with
    | nil =>
      rw [← (List.cons.inj h).1, hb] at ha
      cases ha
    | cons d front =>
      obtain ⟨rfl, hrest⟩ := List.cons.inj h
      obtain ⟨front', back', rfl, hfront, hback⟩ := ih hrest
      refine ⟨c :: front', back', rfl, ?_, hback⟩
      rw [collapse_cons_of_head hc, hfront]
      -- the run ends in the front as it does in the list
      intro e he
      cases front' with
      | nil => cases he
      | cons e' front' => exact hl e he

end CollapsedRuns
