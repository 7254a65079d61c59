import Mathlib

/-!
# Runs of event-driven systems

A system is a partial step function `step : σ → ε → Option σ`: `none` means the
event is not enabled in that state.  This file folds such a step over a list of
events and gives the rules every development over it needs: an invariant kept by
one step is kept by a run, a condition on each step of a run (`AllSteps`), and
the outputs of a run collected in order (`collect`).
-/

namespace EventRun

variable {σ ε α : Type*}

/-- The state reached by the events in order, or `none` when one is not enabled. -/
def exec (step : σ → ε → Option σ) : σ → List ε → Option σ
  | s, [] => some s
  | s, e :: es => (step s e).bind fun s' => exec step s' es

/-- Every step of the run meets `C` in the state it starts from. -/
def AllSteps (step : σ → ε → Option σ) (C : σ → ε → Prop) : σ → List ε → Prop
  | _, [] => True
  | s, e :: es => C s e ∧ match step s e with
    | none => True
    | some s' => AllSteps step C s' es

/-- The outputs of the steps of a run, in order. -/
def collect (step : σ → ε → Option σ) (out : σ → ε → List α) : σ → List ε → List α
  | _, [] => []
  | s, e :: es => out s e ++ match step s e with
    | none => []
    | some s' => collect step out s' es

section

variable {step : σ → ε → Option σ}

instance AllSteps.instDecidable {C : σ → ε → Prop} [∀ s e, Decidable (C s e)] :
    ∀ s es, Decidable (AllSteps step C s es)
  | _, [] => inferInstanceAs (Decidable True)
  | s, e :: es =>
    have : Decidable (match step s e with
        | none => True
        | some s' => AllSteps step C s' es) :=
      match step s e with
      | none => inferInstanceAs (Decidable True)
      | some s' => AllSteps.instDecidable s' es
    inferInstanceAs (Decidable (_ ∧ _))

@[simp] theorem exec_nil (s : σ) : exec step s [] = some s := rfl

/-- A nonempty run is its first step followed by the rest. -/
theorem exec_cons_eq_some {s s' : σ} {e : ε} {es : List ε} :
    exec step s (e :: es) = some s' ↔ ∃ t, step s e = some t ∧ exec step t es = some s' := by
  simp only [exec, Option.bind_eq_some_iff]

/-- A run over `es ++ fs` stops at some state after `es`. -/
theorem exec_append_eq_some {s s' : σ} {es fs : List ε} :
    exec step s (es ++ fs) = some s' ↔
      ∃ t, exec step s es = some t ∧ exec step t fs = some s' := by
  induction es generalizing s with
  | nil => simp
  | cons e es ih =>
    simp only [List.cons_append, exec_cons_eq_some, ih]
    constructor
    · rintro ⟨u, hu, t, ht, hs'⟩
      exact ⟨t, ⟨u, hu, ht⟩, hs'⟩
    · rintro ⟨t, ⟨u, hu, ht⟩, hs'⟩
      exact ⟨u, hu, t, ht, hs'⟩

/-- A run goes on from the state that its first part reaches. -/
theorem exec_append {s t : σ} {es : List ε} (h : exec step s es = some t) (fs : List ε) :
    exec step s (es ++ fs) = exec step t fs := by
  apply Option.ext
  intro s'
  rw [exec_append_eq_some, h]
  simp only [Option.some.injEq, exists_eq_left']

@[simp] theorem allSteps_nil (C : σ → ε → Prop) (s : σ) : AllSteps step C s [] := trivial

/-- `AllSteps` along a step that is enabled. -/
theorem allSteps_cons {C : σ → ε → Prop} {s t : σ} {e : ε} {es : List ε}
    (h : step s e = some t) :
    AllSteps step C s (e :: es) ↔ C s e ∧ AllSteps step C t es := by
  simp only [AllSteps, h]

/-- `AllSteps` of two runs one after the other. -/
theorem allSteps_append {C : σ → ε → Prop} {s t : σ} {es fs : List ε}
    (hrun : exec step s es = some t) :
    AllSteps step C s (es ++ fs) ↔ AllSteps step C s es ∧ AllSteps step C t fs := by
  induction es generalizing s with
  | nil =>
    simp only [exec_nil, Option.some.injEq] at hrun
    rw [hrun, List.nil_append]
    exact (and_iff_right (allSteps_nil C t)).symm
  | cons e es ih =>
    obtain ⟨u, hu, hrest⟩ := exec_cons_eq_some.mp hrun
    rw [List.cons_append, allSteps_cons hu, allSteps_cons hu, ih hrest, and_assoc]

/-- A condition on the events alone, met by every event of a run. -/
theorem allSteps_of_forall_mem {D : ε → Prop} {es : List ε} (h : ∀ e ∈ es, D e) (s : σ) :
    AllSteps step (fun _ e => D e) s es := by
  induction es generalizing s with
  | nil => trivial
  | cons e es ih =>
    refine ⟨h e List.mem_cons_self, ?_⟩
    cases step s e with
    | none => trivial
    | some t => exact ih (fun e he => h e (List.mem_cons_of_mem _ he)) t

/-- `collect` along a step that is enabled. -/
theorem collect_cons {out : σ → ε → List α} {s t : σ} {e : ε} {es : List ε}
    (h : step s e = some t) :
    collect step out s (e :: es) = out s e ++ collect step out t es := by
  simp only [collect, h]

/-- An invariant that every step keeps holds at the end of a run. -/
theorem exec_invariant {I : σ → Prop}
    (hstep : ∀ s e s', I s → step s e = some s' → I s')
    {s s' : σ} {es : List ε} (hs : I s) (hrun : exec step s es = some s') : I s' := by
  induction es generalizing s with
  | nil => simp only [exec_nil, Option.some.injEq] at hrun; exact hrun ▸ hs
  | cons e es ih =>
    obtain ⟨t, ht, hrest⟩ := exec_cons_eq_some.mp hrun
    -- one step keeps the invariant, and the rest of the run starts from it
    exact ih (hstep s e t hs ht) hrest

/-- An invariant of the state and the events so far holds at the end of a run. -/
theorem exec_history {P : List ε → σ → Prop} {s : σ} (hnil : P [] s)
    (hstep : ∀ es e t t', exec step s es = some t → P es t → step t e = some t' →
      P (es ++ [e]) t')
    {s' : σ} {es : List ε} (hrun : exec step s es = some s') : P es s' := by
  induction es using List.reverseRecOn generalizing s' with
  | nil =>
    simp only [exec_nil, Option.some.injEq] at hrun
    exact hrun ▸ hnil
  | append_singleton es e ih =>
    obtain ⟨t, hes, hlast⟩ := exec_append_eq_some.mp hrun
    obtain ⟨t', ht', hend⟩ := exec_cons_eq_some.mp hlast
    simp only [exec_nil, Option.some.injEq] at hend
    exact hstep es e t s' hes (ih hes) (hend ▸ ht')

/-- An invariant kept by the steps that meet `C` holds at the end of a run all of
    whose steps meet `C`. -/
theorem exec_invariant_of_allSteps {I : σ → Prop} {C : σ → ε → Prop}
    (hstep : ∀ s e s', I s → C s e → step s e = some s' → I s')
    {s s' : σ} {es : List ε} (hs : I s) (hC : AllSteps step C s es)
    (hrun : exec step s es = some s') : I s' := by
  induction es generalizing s with
  | nil => simp only [exec_nil, Option.some.injEq] at hrun; exact hrun ▸ hs
  | cons e es ih =>
    obtain ⟨t, ht, hrest⟩ := exec_cons_eq_some.mp hrun
    obtain ⟨hCe, hCes⟩ := (allSteps_cons ht).mp hC
    exact ih (hstep s e t hs hCe ht) hCes hrest

/-- The outputs of two runs one after the other. -/
theorem collect_append {out : σ → ε → List α} {s t : σ} {es fs : List ε}
    (hrun : exec step s es = some t) :
    collect step out s (es ++ fs) = collect step out s es ++ collect step out t fs := by
  induction es generalizing s with
  | nil =>
    simp only [exec_nil, Option.some.injEq] at hrun
    rw [hrun]
    rfl
  | cons e es ih =>
    obtain ⟨u, hu, hrest⟩ := exec_cons_eq_some.mp hrun
    rw [List.cons_append, collect_cons hu, collect_cons hu, ih hrest, List.append_assoc]

/-- A run has no output exactly when none of its steps has one. -/
theorem collect_eq_nil_iff {out : σ → ε → List α} {s s' : σ} {es : List ε}
    (hrun : exec step s es = some s') :
    collect step out s es = [] ↔ AllSteps step (fun s e => out s e = []) s es := by
  induction es generalizing s with
  | nil => simp only [collect, allSteps_nil]
  | cons e es ih =>
    obtain ⟨t, ht, hrest⟩ := exec_cons_eq_some.mp hrun
    rw [collect_cons ht, allSteps_cons ht, List.append_eq_nil_iff, ih hrest]

/-- On a run, a condition may be replaced by one that is equivalent at every enabled step
    from a state of the invariant. -/
theorem allSteps_congr_of_invariant {I : σ → Prop} {C D : σ → ε → Prop}
    (hstep : ∀ s e s', I s → step s e = some s' → I s')
    (hCD : ∀ s e s', I s → step s e = some s' → (C s e ↔ D s e))
    {s s' : σ} {es : List ε} (hs : I s) (hrun : exec step s es = some s') :
    AllSteps step C s es ↔ AllSteps step D s es := by
  induction es generalizing s with
  | nil => simp only [allSteps_nil]
  | cons e es ih =>
    obtain ⟨t, ht, hrest⟩ := exec_cons_eq_some.mp hrun
    rw [allSteps_cons ht, allSteps_cons ht, ih (hstep s e t hs ht) hrest, hCD s e t hs ht]

/-- On a run from a state of the invariant, a condition that keeps it may be replaced by one
    that follows from it at every enabled step. -/
theorem allSteps_imp_of_invariant {I : σ → Prop} {C D : σ → ε → Prop}
    (hstep : ∀ s e s', I s → C s e → step s e = some s' → I s')
    (hCD : ∀ s e s', I s → C s e → step s e = some s' → D s e)
    {s s' : σ} {es : List ε} (hs : I s) (hC : AllSteps step C s es)
    (hrun : exec step s es = some s') : AllSteps step D s es := by
  induction es generalizing s with
  | nil => exact allSteps_nil D s
  | cons e es ih =>
    obtain ⟨t, ht, hrest⟩ := exec_cons_eq_some.mp hrun
    obtain ⟨hCe, hCes⟩ := (allSteps_cons ht).mp hC
    exact (allSteps_cons ht).mpr
      ⟨hCD s e t hs hCe ht, ih (hstep s e t hs hCe ht) hCes hrest⟩

/-- The same without an invariant. -/
theorem allSteps_congr_of_exec {C D : σ → ε → Prop} {s s' : σ} {es : List ε}
    (hrun : exec step s es = some s')
    (hCD : ∀ s e s', step s e = some s' → (C s e ↔ D s e)) :
    AllSteps step C s es ↔ AllSteps step D s es :=
  allSteps_congr_of_invariant (I := fun _ => True) (fun _ _ _ _ _ => trivial)
    (fun s e s' _ => hCD s e s') trivial hrun

/-- A state that is bad from the first step that breaks `C` on, and only from there: the
    run ends in it exactly when it began in it or some step breaks `C`. -/
theorem exec_latched_iff {B : σ → Prop} {C : σ → ε → Prop}
    (hstep : ∀ s e s', step s e = some s' → (B s' ↔ B s ∨ ¬ C s e))
    {s s' : σ} {es : List ε} (hrun : exec step s es = some s') :
    B s' ↔ B s ∨ ¬ AllSteps step C s es := by
  induction es generalizing s with
  | nil =>
    simp only [exec_nil, Option.some.injEq] at hrun
    simp only [hrun, allSteps_nil, not_true_eq_false, or_false]
  | cons e es ih =>
    obtain ⟨t, ht, hrest⟩ := exec_cons_eq_some.mp hrun
    -- bad after the run means bad after its first step or made bad by the rest
    rw [ih hrest, allSteps_cons ht, hstep s e t ht, not_and_or, or_assoc]

/-! ### An item on its way

Some outputs come from an item that is on its way (`A`) through a run; `C` is what keeps it
coming, `E` says which events are considered. -/

/-- What one step may do with the item `a`. -/
inductive ItemStep (A : σ → Prop) (C : σ → ε → Prop) (out : σ → ε → List α) (a : α) (s : σ)
    (e : ε) (s' : σ) : Prop where
  | kept (hC : C s e) (hA : A s' ↔ A s) (hout : a ∉ out s e)
  | output (hC : C s e) (hA : A s) (hA' : ¬ A s') (hout : a ∈ out s e)
  | lost (hC : ¬ C s e) (hA : A s) (hA' : ¬ A s') (hout : a ∉ out s e)

section

variable {I A : σ → Prop} {E : ε → Prop} {C : σ → ε → Prop} {out : σ → ε → List α} {a : α}

/-- An item that is not on its way stays so, and is not output. -/
theorem not_mem_collect_of_off (hI : ∀ s e s', I s → step s e = some s' → I s')
    (hitem : ∀ s e s', I s → E e → step s e = some s' → ItemStep A C out a s e s')
    {s s' : σ} {es : List ε} (hs : I s) (hes : ∀ e ∈ es, E e) (hA : ¬ A s)
    (hrun : exec step s es = some s') :
    AllSteps step C s es ∧ a ∉ collect step out s es := by
  induction es generalizing s with
  | nil => exact ⟨allSteps_nil C s, List.not_mem_nil⟩
  | cons e es ih =>
    obtain ⟨t, ht, hrest⟩ := exec_cons_eq_some.mp hrun
    cases hitem s e t hs (hes e List.mem_cons_self) ht with
    | kept hC hAt hout =>
      obtain ⟨hCs, houts⟩ := ih (hI s e t hs ht) (fun e he => hes e (List.mem_cons_of_mem _ he))
        (fun h => hA (hAt.mp h)) hrest
      rw [allSteps_cons ht, collect_cons ht, List.mem_append, not_or]
      exact ⟨⟨hC, hCs⟩, hout, houts⟩
    -- the other two ways need an item on its way
    | output _ hon => exact absurd hon hA
    | lost _ hon => exact absurd hon hA

/-- An item on its way: once it no longer is, it was output exactly when every step kept it
    coming. -/
theorem mem_collect_iff_of_on (hI : ∀ s e s', I s → step s e = some s' → I s')
    (hitem : ∀ s e s', I s → E e → step s e = some s' → ItemStep A C out a s e s')
    {s s' : σ} {es : List ε} (hs : I s) (hes : ∀ e ∈ es, E e) (hA : A s)
    (hrun : exec step s es = some s') (hA' : ¬ A s') :
    a ∈ collect step out s es ↔ AllSteps step C s es := by
  induction es generalizing s with
  | nil =>
    simp only [exec_nil, Option.some.injEq] at hrun
    -- the empty run does not take the item off its way
    exact absurd (hrun ▸ hA) hA'
  | cons e es ih =>
    obtain ⟨t, ht, hrest⟩ := exec_cons_eq_some.mp hrun
    have hes' : ∀ e ∈ es, E e := fun e he => hes e (List.mem_cons_of_mem _ he)
    have hIt := hI s e t hs ht
    rw [allSteps_cons ht, collect_cons ht, List.mem_append]
    cases hitem s e t hs (hes e List.mem_cons_self) ht with
    | kept hC hAt hout =>
      rw [ih hIt hes' (hAt.mpr hA) hrest]
      exact ⟨fun h => ⟨hC, h.resolve_left hout⟩, fun h => Or.inr h.2⟩
    | output hC _ hAt hout =>
      -- the item is output here, and the rest of the run has nothing to keep
      obtain ⟨hCs, -⟩ := not_mem_collect_of_off hI hitem hIt hes' hAt hrest
      exact iff_of_true (Or.inl hout) ⟨hC, hCs⟩
    | lost hC _ hAt hout =>
      -- the item is lost here, so no later step outputs it
      obtain ⟨-, houts⟩ := not_mem_collect_of_off hI hitem hIt hes' hAt hrest
      exact iff_of_false (not_or.mpr ⟨hout, houts⟩) fun h => hC h.1

end

end

end EventRun
