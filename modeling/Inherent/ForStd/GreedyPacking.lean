import Mathlib

/-!
# Greedy packing with overlap

A packer goes through a sequence of units and puts each into the open group.  When the
open group has no room for the next unit it is closed, and some of its last units are kept
to open the next group.  Whatever the sizes are, the groups are windows of the sequence
that cover it, each begins within the one before it, and each ends later.
-/

namespace GreedyPacking

variable {α : Type*}

/-- A packer: when a group has no room for a unit, and what is kept of a full group. -/
structure Packer (α : Type*) where
  full : List α → α → Bool
  keep : List α → List α
  keep_suffix : ∀ group, keep group <:+ group

/-- The groups that are closed, and the open one. -/
structure State (α : Type*) where
  closed : List (List α) := []
  current : List α := []

/-- The next unit goes into the open group, or closes it. -/
def Packer.step (p : Packer α) (s : State α) (u : α) : State α :=
  if s.current ≠ [] ∧ p.full s.current u = true then
    { closed := s.closed ++ [s.current], current := p.keep s.current ++ [u] }
  else { s with current := s.current ++ [u] }

/-- The units are packed in order. -/
def Packer.run (p : Packer α) (units : List α) : State α := units.foldl p.step {}

/-- All groups: the closed ones and what is open at the end. -/
def State.groups (s : State α) : List (List α) :=
  if s.current = [] then s.closed else s.closed ++ [s.current]

/-- The groups into which the units are packed. -/
def Packer.groups (p : Packer α) (units : List α) : List (List α) := (p.run units).groups

/-- The units from `w.1` to before `w.2`. -/
def window (units : List α) (w : Nat × Nat) : List α := (units.take w.2).drop w.1

@[simp] theorem Packer.run_nil (p : Packer α) : p.run [] = {} := rfl

@[simp] theorem Packer.run_concat (p : Packer α) (units : List α) (u : α) :
    p.run (units ++ [u]) = p.step (p.run units) u := by
  simp [Packer.run]

theorem State.groups_of_ne_nil {s : State α} (h : s.current ≠ []) :
    s.groups = s.closed ++ [s.current] := if_neg h

/-- The groups after one more unit. -/
theorem Packer.groups_step {p : Packer α} {s : State α} (h : s.current ≠ []) (u : α) :
    (p.step s u).groups =
      if p.full s.current u = true then s.groups ++ [p.keep s.current ++ [u]]
      else s.closed ++ [s.current ++ [u]] := by
  rw [Packer.step]
  by_cases hfull : p.full s.current u = true
  · rw [if_pos ⟨h, hfull⟩, if_pos hfull, s.groups_of_ne_nil h, State.groups_of_ne_nil (by simp)]
  · rw [if_neg fun hstep => hfull hstep.2, if_neg hfull, State.groups_of_ne_nil (by simp)]

/-! ## Windows -/

/-- A window that ends within a prefix is one of the prefix. -/
theorem window_append {units more : List α} {w : Nat × Nat} (h : w.2 ≤ units.length) :
    window (units ++ more) w = window units w := by
  rw [window, List.take_append_of_le_length h, window]

/-- A window at the end takes the next unit in. -/
theorem window_concat {units : List α} {u : α} {a : Nat} (h : a ≤ units.length) :
    window (units ++ [u]) (a, units.length + 1) = window units (a, units.length) ++ [u] := by
  simp only [window, List.take_length]
  rw [List.take_of_length_le (by simp), List.drop_append_of_le_length h]

theorem length_window {units : List α} {w : Nat × Nat} (h : w.2 ≤ units.length) :
    (window units w).length = w.2 - w.1 := by
  simp [window, Nat.min_eq_left h]

theorem head?_window (units : List α) {w : Nat × Nat} (h : w.1 < w.2) :
    (window units w).head? = units[w.1]? := by
  rw [window, List.head?_drop, List.getElem?_take, if_pos h]

theorem getLast?_window {units : List α} {w : Nat × Nat} (h : w.1 < w.2)
    (hle : w.2 ≤ units.length) : (window units w).getLast? = units[w.2 - 1]? := by
  rw [List.getLast?_eq_getElem?, length_window hle, window, List.getElem?_drop,
    List.getElem?_take, if_pos (by omega)]
  congr 1
  omega

/-- What a filter keeps is a window if it keeps the units with the numbers of one. -/
theorem filter_eq_window {units : List α} {p : α → Bool} {w : Nat × Nat}
    (h : ∀ (i : Nat) (u : α), units[i]? = some u → (p u = true ↔ w.1 ≤ i ∧ i < w.2)) :
    units.filter p = window units w := by
  obtain ⟨a, b⟩ := w
  induction units generalizing a b with
  | nil => simp [window]
  | cons u units ih =>
    have hu := h 0 u rfl
    have hrest : ∀ a' b', (∀ i, a ≤ i + 1 ∧ i + 1 < b ↔ a' ≤ i ∧ i < b') →
        units.filter p = window units (a', b') := fun a' b' hab =>
      ih a' b' fun i v hv => (h (i + 1) v hv).trans (hab i)
    cases b with
    | zero =>
      have hnot : ¬ p u = true := fun hp => Nat.not_lt_zero 0 (hu.mp hp).2
      rw [List.filter_cons_of_neg hnot, hrest 0 0 (by omega)]
      simp [window]
    | succ b =>
      cases a with
      | zero =>
        rw [List.filter_cons_of_pos (hu.mpr ⟨Nat.le_refl 0, Nat.succ_pos b⟩),
          hrest 0 b (by omega)]
        simp [window]
      | succ a =>
        have hnot : ¬ p u = true := fun hp => Nat.not_succ_le_zero a (hu.mp hp).1
        rw [List.filter_cons_of_neg hnot, hrest a b (by omega)]
        simp [window]

/-- A suffix of a window is a window with the same end. -/
theorem suffix_window {units : List α} {a n : Nat} {tail : List α} (hn : n ≤ units.length)
    (ha : a ≤ n) (h : tail <:+ window units (a, n)) :
    ∃ b, a ≤ b ∧ b ≤ n ∧ tail = window units (b, n) := by
  obtain ⟨front, hfront⟩ := h
  have hlen : front.length + tail.length = n - a := by
    rw [← List.length_append, hfront, length_window hn]
  refine ⟨a + front.length, by omega, by omega, ?_⟩
  have hdrop : (front ++ tail).drop front.length = tail := List.drop_left
  rw [← hdrop, hfront, window, List.drop_drop, window]

/-! ## Covers -/

/-- Windows that cover the numbers below `n` in order: each begins and ends no earlier than
    the one before it, and begins within it or right behind it. -/
structure IsCover (n : Nat) (ws : List (Nat × Nat)) : Prop where
  bounds : ∀ w ∈ ws, w.1 < w.2 ∧ w.2 ≤ n
  covers : ∀ i < n, ∃ w ∈ ws, w.1 ≤ i ∧ i < w.2
  ordered : ws.Pairwise fun v w => v.1 ≤ w.1 ∧ v.2 < w.2
  linked : ws.IsChain fun v w => w.1 ≤ v.2

theorem IsCover.nil : IsCover 0 [] := ⟨by simp, by simp, by simp, by simp⟩

theorem IsCover.single : IsCover 1 [(0, 1)] where
  bounds := by simp
  covers := by simp
  ordered := by simp
  linked := by simp

/-- The last window takes one more in. -/
theorem IsCover.extend {n a : Nat} {ws : List (Nat × Nat)} (h : IsCover n (ws ++ [(a, n)])) :
    IsCover (n + 1) (ws ++ [(a, n + 1)]) where
  bounds := by
    intro w hw
    rcases List.mem_append.mp hw with hw | hw
    · have := h.bounds w (List.mem_append_left _ hw)
      omega
    · have := h.bounds (a, n) (by simp)
      rw [List.mem_singleton.mp hw]
      simp only at this ⊢
      omega
  covers := by
    intro i hi
    have ha := (h.bounds (a, n) (by simp)).1
    -- the last window has the new element, and no other one loses any
    by_cases hin : i < n
    · obtain ⟨w, hw, hwi⟩ := h.covers i hin
      rcases List.mem_append.mp hw with hw | hw
      · exact ⟨w, List.mem_append_left _ hw, hwi⟩
      · rw [List.mem_singleton.mp hw] at hwi
        exact ⟨(a, n + 1), by simp, by simp only at hwi ⊢; omega⟩
    · exact ⟨(a, n + 1), by simp, by simp only at ha ⊢; omega⟩
  ordered := by
    have hord := h.ordered
    rw [List.pairwise_append] at hord ⊢
    refine ⟨hord.1, by simp, fun v hv w hw => ?_⟩
    have := hord.2.2 v hv (a, n) (by simp)
    rw [List.mem_singleton.mp hw]
    simp only at this ⊢
    omega
  linked := by
    have hlink := h.linked
    rw [List.isChain_append] at hlink ⊢
    refine ⟨hlink.1, by simp, fun v hv w hw => ?_⟩
    have := hlink.2.2 v hv (a, n) (by simp)
    rw [List.head?_cons, Option.mem_some_iff] at hw
    rw [← hw]
    exact this

/-- The last window is closed, and the next one begins within it or right behind it. -/
theorem IsCover.next {n a b : Nat} {ws : List (Nat × Nat)} (h : IsCover n (ws ++ [(a, n)]))
    (hab : a ≤ b) (hbn : b ≤ n) : IsCover (n + 1) (ws ++ [(a, n)] ++ [(b, n + 1)]) where
  bounds := by
    intro w hw
    rcases List.mem_append.mp hw with hw | hw
    · have := h.bounds w hw
      omega
    · rw [List.mem_singleton.mp hw]
      simp only
      omega
  covers := by
    intro i hi
    by_cases hin : i < n
    · obtain ⟨w, hw, hwi⟩ := h.covers i hin
      exact ⟨w, List.mem_append_left _ hw, hwi⟩
    · exact ⟨(b, n + 1), by simp, by simp only; omega⟩
  ordered := by
    rw [List.pairwise_append]
    refine ⟨h.ordered, by simp, fun v hv w hw => ?_⟩
    rw [List.mem_singleton.mp hw]
    -- no window starts behind the last one
    have hlast : v.1 ≤ a := by
      rcases List.mem_append.mp hv with hv | hv
      · exact ((List.pairwise_append.mp h.ordered).2.2 v hv (a, n) (by simp)).1
      · rw [List.mem_singleton.mp hv]
    have := (h.bounds v hv).2
    simp only
    omega
  linked := by
    rw [List.isChain_append]
    refine ⟨h.linked, by simp, fun v hv w hw => ?_⟩
    rw [List.getLast?_concat, Option.mem_some_iff] at hv
    rw [List.head?_cons, Option.mem_some_iff] at hw
    rw [← hv, ← hw]
    exact hbn

/-! ## What a packer does -/

/-- The closed groups are the windows `ws`, and the open group is the window from `a` on. -/
structure State.Windows (s : State α) (units : List α) (ws : List (Nat × Nat)) (a : Nat) :
    Prop where
  closed : s.closed = ws.map (window units)
  current : s.current = window units (a, units.length)
  start_le : a ≤ units.length
  cover : units ≠ [] → IsCover units.length (ws ++ [(a, units.length)])
  nil : units = [] → ws = []

/-- A group of a nonempty sequence is open after every step. -/
theorem State.Windows.current_ne_nil {s : State α} {units : List α} {ws : List (Nat × Nat)}
    {a : Nat} (h : s.Windows units ws a) (hne : units ≠ []) : s.current ≠ [] := by
  have ha := ((h.cover hne).bounds (a, units.length) (by simp)).1
  apply List.ne_nil_of_length_pos
  rw [h.current, length_window (Nat.le_refl _)]
  simp only at ha
  omega

/-- One step of a packer keeps the groups windows. -/
theorem State.Windows.step {p : Packer α} {s : State α} {units : List α}
    {ws : List (Nat × Nat)} {a : Nat} (h : s.Windows units ws a) (u : α) :
    ∃ ws' a', (p.step s u).Windows (units ++ [u]) ws' a' := by
  have hclosed : ∀ v ∈ ws, window (units ++ [u]) v = window units v := by
    intro v hv
    have hne : units ≠ [] := fun hnil => by simp [h.nil hnil] at hv
    exact window_append ((h.cover hne).bounds v (List.mem_append_left _ hv)).2
  have hlen : (units ++ [u]).length = units.length + 1 := by simp
  by_cases hfull : s.current ≠ [] ∧ p.full s.current u = true
  · -- the open group is closed
    have hne : units ≠ [] := by
      intro hnil
      apply hfull.1
      rw [h.current, hnil, window, List.take_nil, List.drop_nil]
    obtain ⟨b, hab, hbn, hkeep⟩ := suffix_window (Nat.le_refl _) h.start_le
      (h.current ▸ p.keep_suffix s.current)
    refine ⟨ws ++ [(a, units.length)], b, ?_⟩
    rw [Packer.step, if_pos hfull]
    refine ⟨?_, ?_, by omega, fun _ => ?_, by simp⟩
    · rw [List.map_append, List.map_congr_left hclosed, h.closed, List.map_singleton,
        window_append (Nat.le_refl _), h.current]
    · rw [hlen, window_concat hbn, ← hkeep, ← h.current]
    · rw [hlen]
      exact (h.cover hne).next hab hbn
  · refine ⟨ws, a, ?_⟩
    rw [Packer.step, if_neg hfull]
    refine ⟨?_, ?_, by have := h.start_le; omega, fun _ => ?_, by simp⟩
    · rw [List.map_congr_left hclosed, h.closed]
    · rw [hlen, window_concat h.start_le, ← h.current]
    · rw [hlen]
      by_cases hne : units = []
      · have ha := h.start_le
        simp only [hne, List.length_nil, Nat.le_zero] at ha
        rw [h.nil hne, hne, ha]
        exact IsCover.single
      · exact (h.cover hne).extend

/-- After every run the groups are windows. -/
theorem Packer.run_windows (p : Packer α) (units : List α) :
    ∃ ws a, (p.run units).Windows units ws a := by
  induction units using List.reverseRecOn with
  | nil => exact ⟨[], 0, rfl, rfl, Nat.le_refl 0, by simp, by simp⟩
  | append_singleton units u ih =>
    obtain ⟨ws, a, h⟩ := ih
    rw [Packer.run_concat]
    exact h.step u

/-- The groups of a packer are windows that cover the units in order. -/
theorem Packer.groups_cover (p : Packer α) (units : List α) :
    ∃ ws, p.groups units = ws.map (window units) ∧ IsCover units.length ws := by
  obtain ⟨ws, a, h⟩ := p.run_windows units
  by_cases hne : units = []
  · exact ⟨[], by simp [Packer.groups, hne, State.groups], by rw [hne]; exact IsCover.nil⟩
  · refine ⟨ws ++ [(a, units.length)], ?_, h.cover hne⟩
    rw [Packer.groups, State.groups, if_neg (h.current_ne_nil hne), h.closed, h.current]
    simp

/-! ## Open groups -/

/-- Every closed group was the open one behind some unit. -/
theorem Packer.exists_of_mem_closed {p : Packer α} {units g : List α}
    (h : g ∈ (p.run units).closed) :
    ∃ front u back, units = front ++ u :: back ∧ g = (p.run (front ++ [u])).current := by
  induction units using List.reverseRecOn with
  | nil => cases h
  | append_singleton units v ih =>
    have hgroup : g ∈ (p.run units).closed ∨
        g = (p.run units).current ∧ (p.run units).current ≠ [] := by
      rw [Packer.run_concat, Packer.step] at h
      split at h
      · rename_i hfull
        rcases List.mem_append.mp h with h | h
        · exact .inl h
        · exact .inr ⟨List.mem_singleton.mp h, hfull.1⟩
      · exact .inl h
    rcases hgroup with h | ⟨rfl, hne⟩
    · obtain ⟨front, u, back, rfl, hg⟩ := ih h
      exact ⟨front, u, back ++ [v], by simp, hg⟩
    · rcases List.eq_nil_or_concat' units with rfl | ⟨front, u, rfl⟩
      · exact absurd rfl hne
      · exact ⟨front, u, [v], by simp, rfl⟩

/-- Every group was the open one behind some unit. -/
theorem Packer.exists_of_mem_groups {p : Packer α} {units g : List α} (h : g ∈ p.groups units) :
    ∃ front u back, units = front ++ u :: back ∧ g = (p.run (front ++ [u])).current := by
  rw [Packer.groups, State.groups] at h
  split at h
  · exact p.exists_of_mem_closed h
  · rename_i hne
    rcases List.mem_append.mp h with h | h
    · exact p.exists_of_mem_closed h
    · rw [List.mem_singleton.mp h]
      rcases List.eq_nil_or_concat' units with rfl | ⟨front, u, rfl⟩
      · exact absurd rfl hne
      · exact ⟨front, u, [], rfl, rfl⟩

/-- What is open at some time is the start of a group. -/
theorem Packer.exists_prefix_group (p : Packer α) (front back : List α)
    (hne : (p.run front).current ≠ []) :
    ∃ g ∈ p.groups (front ++ back), (p.run front).current <+: g := by
  -- it stays the start of the open group until this is closed
  have hstart : (∃ g ∈ (p.run (front ++ back)).closed, (p.run front).current <+: g) ∨
      (p.run front).current <+: (p.run (front ++ back)).current := by
    induction back using List.reverseRecOn with
    | nil => exact .inr (by rw [List.append_nil])
    | append_singleton back v ih =>
      rw [← List.append_assoc, Packer.run_concat, Packer.step]
      split
      · rcases ih with ⟨g, hg, hpre⟩ | hpre
        · exact .inl ⟨g, List.mem_append_left _ hg, hpre⟩
        · exact .inl ⟨_, List.mem_append_right _ (List.mem_singleton_self _), hpre⟩
      · exact ih.imp_right fun hpre => hpre.trans (List.prefix_append _ _)
  rw [Packer.groups, State.groups]
  rcases hstart with ⟨g, hg, hpre⟩ | hpre
  · split
    · exact ⟨g, hg, hpre⟩
    · exact ⟨g, List.mem_append_left _ hg, hpre⟩
  · have hopen : (p.run (front ++ back)).current ≠ [] := by
      intro hnil
      rw [hnil] at hpre
      exact hne (List.prefix_nil.mp hpre)
    rw [if_neg hopen]
    exact ⟨_, List.mem_append_right _ (List.mem_singleton_self _), hpre⟩

end GreedyPacking
