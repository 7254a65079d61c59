import Mathlib

/-!
# Gathering answers

Tasks answer in any order, each into a slot of its own.  The first error ends the gathering;
when every task has answered, the answers stand in the order of the tasks.
-/

namespace Gather

variable {ε β : Type*}

/-- The tasks of `order` answer, one after the other. -/
def settle (answer : Nat → Except ε β) :
    List Nat → List (Option β) → Except ε (List (Option β))
  | [], slots => .ok slots
  | i :: order, slots =>
    match answer i with
    | .error e => .error e
    | .ok b => settle answer order (slots.set i (some b))

/-- The answers of `n` tasks, `none` while one of them is out. -/
def gather (answer : Nat → Except ε β) (n : Nat) (order : List Nat) :
    Option (Except ε (List β)) :=
  match settle answer order (List.replicate n none) with
  | .error e => some (.error e)
  | .ok slots => if slots.all Option.isSome then some (.ok slots.reduceOption) else none

variable {answer : Nat → Except ε β}

/-- Each slot holds the answer of its task, and the others are as they were. -/
theorem settle_ok {g : Nat → β} {order : List Nat} (h : ∀ i ∈ order, answer i = .ok (g i))
    (slots : List (Option β)) :
    ∃ filled, settle answer order slots = .ok filled ∧ filled.length = slots.length ∧
      ∀ i < slots.length, filled[i]? = if i ∈ order then some (some (g i)) else slots[i]? := by
  induction order generalizing slots with
  | nil => exact ⟨slots, rfl, rfl, fun i _ => by simp⟩
  | cons j order ih =>
    obtain ⟨filled, hsettle, hlen, hget⟩ :=
      ih (fun i hi => h i (List.mem_cons_of_mem j hi)) (slots.set j (some (g j)))
    rw [List.length_set] at hlen hget
    refine ⟨filled, ?_, hlen, fun i hi => ?_⟩
    · rw [settle, h j List.mem_cons_self]
      exact hsettle
    · rw [hget i hi]
      by_cases horder : i ∈ order
      · simp [horder]
      · rcases eq_or_ne j i with rfl | hne
        · simp [horder, hi]
        · simp [horder, hne, hne.symm]

/-- The gathering fails with the error of a task. -/
theorem settle_error {order : List Nat} {i : Nat} {e : ε} (hi : i ∈ order)
    (he : answer i = .error e) (slots : List (Option β)) :
    ∃ j ∈ order, ∃ e', answer j = .error e' ∧ settle answer order slots = .error e' := by
  induction order generalizing slots with
  | nil => cases hi
  | cons j order ih =>
    unfold settle
    cases hj : answer j with
    | error e' => exact ⟨j, List.mem_cons_self, e', hj, rfl⟩
    | ok b =>
      have hne : i ≠ j := by
        rintro rfl
        rw [he] at hj
        cases hj
      obtain ⟨k, hk, e', hk', hrun⟩ :=
        ih (List.mem_of_ne_of_mem hne hi) (slots.set j (some b))
      exact ⟨k, List.mem_cons_of_mem j hk, e', hk', hrun⟩

/-- When all tasks return, their answers come in the order of the tasks. -/
theorem gather_ok {n : Nat} {g : Nat → β} {order : List Nat} (hperm : order.Perm (List.range n))
    (h : ∀ i < n, answer i = .ok (g i)) :
    gather answer n order = some (.ok ((List.range n).map g)) := by
  have horder : ∀ i ∈ order, answer i = .ok (g i) := fun i hi =>
    h i (List.mem_range.mp (hperm.mem_iff.mp hi))
  obtain ⟨filled, hsettle, hlen, hget⟩ := settle_ok horder (List.replicate n none)
  rw [List.length_replicate] at hlen hget
  have hfilled : filled = (List.range n).map fun i => some (g i) := by
    apply List.ext_getElem?
    intro i
    rcases Nat.lt_or_ge i n with hi | hi
    · rw [hget i hi, if_pos (hperm.mem_iff.mpr (List.mem_range.mpr hi))]
      simp [hi]
    · simp [hlen, hi]
  rw [gather, hsettle, hfilled]
  simp [List.reduceOption, List.filterMap_map]

/-- When a task raises, the gathering raises the error of one that does. -/
theorem gather_error (answer : Nat → Except ε β) {n i : Nat} {e : ε} {order : List Nat} (hperm : order.Perm (List.range n))
    (hi : i < n) (he : answer i = .error e) :
    ∃ j < n, ∃ e', answer j = .error e' ∧ gather answer n order = some (.error e') := by
  obtain ⟨j, hj, e', hj', hsettle⟩ := settle_error
    (hperm.mem_iff.mpr (List.mem_range.mpr hi)) he (List.replicate n none)
  refine ⟨j, List.mem_range.mp (hperm.mem_iff.mp hj), e', hj', ?_⟩
  rw [gather, hsettle]

end Gather
