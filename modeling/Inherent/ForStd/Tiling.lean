import Mathlib

/-!
# Tilings of an interval

Spans that lie one behind the other without gaps.  The parts of a list at the spans of a
tiling, put together, are the part at the whole interval.
-/

namespace Tiling

/-- The spans lie one behind the other from `a` to `b`, without gaps, and none is empty. -/
def Tiles : Nat → Nat → List (Nat × Nat) → Prop
  | a, b, [] => a = b
  | a, b, s :: ss => s.1 = a ∧ a < s.2 ∧ Tiles s.2 b ss

/-- Steps of length `size` from `a`, the last one cut at `b`. -/
def steps (size b : Nat) : Nat → Nat → List (Nat × Nat)
  | 0, _ => []
  | fuel + 1, a =>
    if a < b then (a, min (a + size) b) :: steps size b fuel (min (a + size) b) else []

theorem Tiles.le {a b : Nat} {ss : List (Nat × Nat)} (h : Tiles a b ss) : a ≤ b := by
  induction ss generalizing a with
  | nil => exact Nat.le_of_eq h
  | cons s ss ih =>
    obtain ⟨-, hlt, hrest⟩ := h
    have := ih hrest
    omega

/-- Every span lies in the interval. -/
theorem Tiles.bounds {a b : Nat} {ss : List (Nat × Nat)} (h : Tiles a b ss) {s : Nat × Nat}
    (hs : s ∈ ss) : a ≤ s.1 ∧ s.1 < s.2 ∧ s.2 ≤ b := by
  induction ss generalizing a with
  | nil => cases hs
  | cons t ss ih =>
    obtain ⟨hstart, hlt, hrest⟩ := h
    have hle := hrest.le
    cases hs with
    | head => omega
    | tail _ hs =>
      have := ih hrest hs
      omega

/-- Of two spans the first one ends before the other starts. -/
theorem Tiles.pairwise {a b : Nat} {ss : List (Nat × Nat)} (h : Tiles a b ss) :
    ss.Pairwise fun s t => s.2 ≤ t.1 := by
  induction ss generalizing a with
  | nil => exact .nil
  | cons s ss ih =>
    obtain ⟨-, -, hrest⟩ := h
    exact List.pairwise_cons.mpr ⟨fun t ht => (hrest.bounds ht).1, ih hrest⟩

/-- The parts of a list at the spans are together its part at the interval. -/
theorem Tiles.flatten {α : Type} {xs : List α} {a b : Nat} {ss : List (Nat × Nat)}
    (h : Tiles a b ss) (hb : b ≤ xs.length) :
    (ss.map fun s => (xs.take s.2).drop s.1).flatten = (xs.take b).drop a := by
  induction ss generalizing a with
  | nil =>
    have hab : a = b := h
    have : ((xs.take b).drop a).length = 0 := by simp [hab]
    rw [List.length_eq_zero_iff.mp this]
    rfl
  | cons s ss ih =>
    obtain ⟨rfl, hlt, hrest⟩ := h
    have hle := hrest.le
    have htake : (xs.take b).take s.2 = xs.take s.2 := by rw [List.take_take, Nat.min_eq_left hle]
    have hlen : s.1 ≤ ((xs.take b).take s.2).length := by
      simp only [List.length_take]
      omega
    rw [List.map_cons, List.flatten_cons, ih hrest, ← htake,
      ← List.drop_append_of_le_length hlen, List.take_append_drop]

theorem Tiles.shift {a b : Nat} {ss : List (Nat × Nat)} (h : Tiles a b ss) (k : Nat) :
    Tiles (k + a) (k + b) (ss.map fun s => (k + s.1, k + s.2)) := by
  induction ss generalizing a with
  | nil => exact congrArg (k + ·) h
  | cons s ss ih =>
    obtain ⟨hstart, hlt, hrest⟩ := h
    exact ⟨congrArg (k + ·) hstart, Nat.add_lt_add_left hlt k, ih hrest⟩

/-- The steps tile the interval, when there are enough of them and they are not empty. -/
theorem tiles_steps {size a b fuel : Nat} (hsize : 0 < size) (hab : a ≤ b)
    (hfuel : b - a ≤ fuel) : Tiles a b (steps size b fuel a) := by
  induction fuel generalizing a with
  | zero =>
    have : a = b := by omega
    exact this
  | succ fuel ih =>
    unfold steps
    split
    · refine ⟨rfl, ?_, ih ?_ ?_⟩ <;> omega
    · have : a = b := by omega
      exact this

/-- No step is longer than `size`. -/
theorem length_of_mem_steps {size a b fuel : Nat} {s : Nat × Nat}
    (hs : s ∈ steps size b fuel a) : s.2 ≤ s.1 + size := by
  induction fuel generalizing a with
  | zero => cases hs
  | succ fuel ih =>
    unfold steps at hs
    split at hs
    · cases hs with
      | head => exact Nat.min_le_left _ _
      | tail _ hs => exact ih hs
    · cases hs

/-- Every step but the last one has the full length. -/
theorem length_of_mem_dropLast_steps {size a b fuel : Nat} {s : Nat × Nat}
    (hs : s ∈ (steps size b fuel a).dropLast) : s.2 = s.1 + size := by
  induction fuel generalizing a with
  | zero => cases hs
  | succ fuel ih =>
    unfold steps at hs
    split at hs
    · cases hrest : steps size b fuel (min (a + size) b) with
      | nil =>
        rw [hrest] at hs
        cases hs
      | cons t rest =>
        rw [hrest, List.dropLast_cons_of_ne_nil (List.cons_ne_nil t rest), ← hrest] at hs
        cases hs with
        | head =>
          -- there is something left behind this step
          have hleft : min (a + size) b < b := by
            by_contra hend
            cases fuel with
            | zero => cases hrest
            | succ fuel =>
              rw [steps, if_neg hend] at hrest
              cases hrest
          simp only
          omega
        | tail _ hs => exact ih hs
    · cases hs

end Tiling
