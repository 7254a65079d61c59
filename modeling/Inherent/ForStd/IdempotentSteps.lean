import Mathlib

/-!
# Steps that commute and do nothing the second time

Maps `f i` of a state, for `i` in some type of steps, each of which does nothing when it is
repeated and which commute with each other.  What a sequence of such steps leaves depends on
which steps are in it only, not on their order or on how often they were repeated, so a
sequence that was cut short anywhere may be run again from its beginning.
-/

namespace IdempotentSteps

variable {ι σ : Type*}

/-- Steps that commute, each of them idempotent. -/
structure Steps (f : ι → σ → σ) : Prop where
  idempotent : ∀ i s, f i (f i s) = f i s
  commute : ∀ i j s, f i (f j s) = f j (f i s)

/-- The state after the steps in order. -/
def run (f : ι → σ → σ) (steps : List ι) (s : σ) : σ := steps.foldl (fun s i => f i s) s

variable {f : ι → σ → σ} {i : ι} {steps steps' : List ι}

@[simp] theorem run_nil (s : σ) : run f [] s = s := rfl

@[simp] theorem run_cons (i : ι) (steps : List ι) (s : σ) :
    run f (i :: steps) s = run f steps (f i s) := rfl

/-- A step may be taken before the others instead of after them. -/
theorem run_comm (h : Steps f) (i : ι) (steps : List ι) (s : σ) :
    run f steps (f i s) = f i (run f steps s) := by
  induction steps generalizing s with
  | nil => rfl
  | cons j steps ih => rw [run_cons, run_cons, h.commute j i, ih]

/-- A step that has been taken does nothing any more. -/
theorem step_run_of_mem (h : Steps f) (hi : i ∈ steps) (s : σ) :
    f i (run f steps s) = run f steps s := by
  induction steps generalizing s with
  | nil => cases hi
  | cons j steps ih =>
    rw [run_cons]
    cases List.mem_cons.mp hi with
    | inl hij => rw [hij, run_comm h, h.idempotent]
    | inr hi => exact ih hi (f j s)

/-- Steps that have all been taken do nothing any more. -/
theorem run_run_of_subset (h : Steps f) (hsub : steps' ⊆ steps) (s : σ) :
    run f steps' (run f steps s) = run f steps s := by
  induction steps' with
  | nil => rfl
  | cons i steps' ih =>
    rw [List.cons_subset] at hsub
    rw [run_cons, step_run_of_mem h hsub.1, ih hsub.2]

/-- Two sequences may be swapped. -/
theorem run_run_comm (h : Steps f) (steps steps' : List ι) (s : σ) :
    run f steps' (run f steps s) = run f steps (run f steps' s) := by
  induction steps generalizing s with
  | nil => rfl
  | cons i steps ih => rw [run_cons, run_cons, ih, run_comm h]

/-- Sequences of the same steps leave the same state. -/
theorem run_eq_of_subset (h : Steps f) (hsub : steps ⊆ steps') (hsub' : steps' ⊆ steps) (s : σ) :
    run f steps s = run f steps' s := by
  rw [← run_run_of_subset h hsub' s, run_run_comm h, run_run_of_subset h hsub s]

/-- A sequence after some of its own steps leaves what it leaves alone. -/
theorem run_of_subset_of_run (h : Steps f) (hsub : steps' ⊆ steps) (s : σ) :
    run f steps (run f steps' s) = run f steps s := by
  rw [run_run_comm h, run_run_of_subset h hsub s]

end IdempotentSteps
