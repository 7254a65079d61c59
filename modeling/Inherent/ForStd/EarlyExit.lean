import Inherent.ForStd.StatefulProgram

/-!
# Guards with an early exit

A list of guards is tried in order, and the first one that answers ends it: the guards behind it
do not run.  `answer_eq_none_iff` and `exists_of_answer` say which guards have run, and
`Implements` ties a program that can raise to the guards.
-/

namespace EarlyExit

variable {ε σ δ : Type}

/-- The answer of the first guard that has one, and the state there. -/
def answer : List (σ → Option δ × σ) → σ → Option δ × σ
  | [], s => (none, s)
  | guard :: guards, s =>
    match guard s with
    | (some d, t) => (some d, t)
    | (none, t) => answer guards t

/-- The state after all the guards. -/
def through (guards : List (σ → Option δ × σ)) (s : σ) : σ :=
  guards.foldl (fun s guard => (guard s).2) s

/-- No guard has an answer, each in the state that the ones before it leave. -/
def Passes : List (σ → Option δ × σ) → σ → Prop
  | [], _ => True
  | guard :: guards, s => (guard s).1 = none ∧ Passes guards (guard s).2

@[simp] theorem through_nil (s : σ) : through ([] : List (σ → Option δ × σ)) s = s := rfl

@[simp] theorem through_cons (guard : σ → Option δ × σ) (guards : List (σ → Option δ × σ))
    (s : σ) : through (guard :: guards) s = through guards (guard s).2 := rfl

theorem answer_cons_of_none {guard : σ → Option δ × σ} {s : σ} (h : (guard s).1 = none)
    (guards : List (σ → Option δ × σ)) :
    answer (guard :: guards) s = answer guards (guard s).2 := by
  rw [answer]
  split
  · next heq => simp [heq] at h
  · next heq => rw [heq]

theorem answer_cons_of_some {guard : σ → Option δ × σ} {s : σ} {d : δ} (h : (guard s).1 = some d)
    (guards : List (σ → Option δ × σ)) : answer (guard :: guards) s = (some d, (guard s).2) := by
  rw [answer]
  split
  · next heq =>
    rw [heq] at h ⊢
    rw [← h]
  · next heq => simp [heq] at h

/-- An answer is that of one guard: those before it have passed, and those behind it leave no
    trace in the state. -/
theorem exists_of_answer {guards : List (σ → Option δ × σ)} {s t : σ} {d : δ}
    (h : answer guards s = (some d, t)) :
    ∃ before guard after, guards = before ++ guard :: after ∧ Passes before s ∧
      (guard (through before s)).1 = some d ∧ t = through (before ++ [guard]) s := by
  induction guards generalizing s with
  | nil => cases h
  | cons guard guards ih =>
    cases hguard : (guard s).1 with
    | some d' =>
      rw [answer_cons_of_some hguard] at h
      cases h
      exact ⟨[], guard, guards, rfl, trivial, hguard, rfl⟩
    | none =>
      rw [answer_cons_of_none hguard] at h
      obtain ⟨before, found, after, rfl, hpasses, hfound, ht⟩ := ih h
      exact ⟨guard :: before, found, after, rfl, ⟨hguard, hpasses⟩, hfound, ht⟩

/-- Behind guards that pass the next ones run. -/
theorem answer_append_of_passes {as : List (σ → Option δ × σ)} {s : σ} (h : Passes as s)
    (bs : List (σ → Option δ × σ)) : answer (as ++ bs) s = answer bs (through as s) := by
  induction as generalizing s with
  | nil => rfl
  | cons guard as ih => rw [List.cons_append, answer_cons_of_none h.1, ih h.2, through_cons]

/-- Behind an answer no further guard runs. -/
theorem answer_append_of_some {as : List (σ → Option δ × σ)} {s : σ} {d : δ}
    (h : (answer as s).1 = some d) (bs : List (σ → Option δ × σ)) :
    answer (as ++ bs) s = answer as s := by
  induction as generalizing s with
  | nil => cases h
  | cons guard as ih =>
    rw [List.cons_append]
    cases hguard : (guard s).1 with
    | some d' => rw [answer_cons_of_some hguard, answer_cons_of_some hguard]
    | none =>
      rw [answer_cons_of_none hguard] at h ⊢
      rw [answer_cons_of_none hguard, ih h]

theorem answer_eq_none_iff {guards : List (σ → Option δ × σ)} {s : σ} :
    (answer guards s).1 = none ↔ Passes guards s := by
  induction guards generalizing s with
  | nil => simp [answer, Passes]
  | cons guard guards ih =>
    cases hguard : (guard s).1 with
    | some d => simp [answer_cons_of_some hguard, Passes, hguard]
    | none => rw [answer_cons_of_none hguard, ih, Passes, and_iff_right hguard]

/-! ## Programs -/

open StatefulProgram

/-- The program does not raise and has the answer and the effect of the guard. -/
def Implements (program : ExceptT ε (StateM σ) (Option δ)) (guard : σ → Option δ × σ) : Prop :=
  ∀ s, exec program s = (.ok (guard s).1, (guard s).2)

theorem implements_pure : Implements (pure none : ExceptT ε (StateM σ) (Option δ)) (answer []) :=
  fun _ => rfl

/-- A program that ends with the answer of its first part, if there is one. -/
theorem Implements.bind {program : ExceptT ε (StateM σ) (Option δ)}
    {next : Option δ → ExceptT ε (StateM σ) (Option δ)} {guard : σ → Option δ × σ}
    {guards : List (σ → Option δ × σ)} (hprogram : Implements program guard)
    (hexit : ∀ d, next (some d) = pure (some d)) (hrest : Implements (next none) (answer guards)) :
    Implements (program >>= next) (answer (guard :: guards)) := by
  intro s
  rw [exec_bind_of_ok (hprogram s)]
  cases hguard : (guard s).1 with
  | some d => rw [hexit, answer_cons_of_some hguard, exec_pure]
  | none => rw [answer_cons_of_none hguard, hrest]

/-- A first part that only runs if there is something to check. -/
theorem Implements.option {β : Type} {part : β → ExceptT ε (StateM σ) (Option δ)}
    {next : β → Option δ → ExceptT ε (StateM σ) (Option δ)}
    {program : Option β → ExceptT ε (StateM σ) (Option δ)} {guard : β → σ → Option δ × σ}
    {guards : List (σ → Option δ × σ)} (hpart : ∀ b, Implements (part b) (guard b))
    (hsome : ∀ b, program (some b) = part b >>= next b)
    (hexit : ∀ b d, next b (some d) = pure (some d)) (hpass : ∀ b, next b none = program none)
    (hrest : Implements (program none) (answer guards)) (check : Option β) :
    Implements (program check) (answer ((check.map guard).toList ++ guards)) := by
  cases check with
  | none => exact hrest
  | some b =>
    rw [hsome]
    exact (hpart b).bind (hexit b) ((hpass b).symm ▸ hrest)

/-- A first part under a condition. -/
theorem Implements.ite {c : Prop} [Decidable c] {part : ExceptT ε (StateM σ) (Option δ)}
    {next : Option δ → ExceptT ε (StateM σ) (Option δ)} {guard : σ → Option δ × σ}
    {guards : List (σ → Option δ × σ)} (hpart : c → Implements part guard)
    (hexit : ∀ d, next (some d) = pure (some d)) (hrest : Implements (next none) (answer guards)) :
    Implements (if c then part >>= next else next none)
      (answer (if c then guard :: guards else guards)) := by
  split
  · next hc => exact (hpart hc).bind hexit hrest
  · exact hrest

theorem passes_iff {guards : List (σ → Option δ × σ)} {s : σ} :
    Passes guards s ↔ ∀ before guard after, guards = before ++ guard :: after →
      (guard (through before s)).1 = none := by
  induction guards generalizing s with
  | nil => simp [Passes]
  | cons first guards ih =>
    rw [Passes, ih]
    constructor
    · rintro ⟨hfirst, hrest⟩ before guard after h
      cases before with
      | nil =>
        cases h
        exact hfirst
      | cons _ before =>
        cases h
        exact hrest before guard after rfl
    · intro h
      exact ⟨h [] first guards rfl,
        fun before guard after heq => h (first :: before) guard after (by rw [heq]; rfl)⟩

/-! ## Checks that raise -/

section

variable {α β ε' : Type}

/-- Two programs one after the other succeed if the first does and the second goes on from it. -/
theorem bind_eq_ok {x : Except ε' α} {f : α → Except ε' β} {b : β} :
    x >>= f = .ok b ↔ ∃ a, x = .ok a ∧ f a = .ok b := by
  cases x with
  | error e => exact iff_of_false (by intro h; cases h) (by rintro ⟨a, h, -⟩; cases h)
  | ok a => exact ⟨fun h => ⟨a, rfl, h⟩, by rintro ⟨a', h, hf⟩; cases h; exact hf⟩

/-- A loop of checks passes if each of them does. -/
theorem forM_eq_ok {l : List α} {check : α → Except ε' Unit} :
    l.forM check = .ok () ↔ ∀ a ∈ l, check a = .ok () := by
  induction l with
  | nil => simp [pure, Except.pure]
  | cons a l ih =>
    rw [List.forM_eq_forM, List.forM_cons, bind_eq_ok, List.forall_mem_cons]
    constructor
    · rintro ⟨_, ha, hl⟩
      exact ⟨ha, ih.mp hl⟩
    · rintro ⟨ha, hl⟩
      exact ⟨(), ha, ih.mpr hl⟩

/-- A loop that collects results succeeds with those of its items. -/
theorem mapM_eq_ok {l : List α} {f : α → Except ε' β} {bs : List β} :
    l.mapM f = .ok bs ↔ List.Forall₂ (fun a b => f a = .ok b) l bs := by
  induction l generalizing bs with
  | nil =>
    rw [List.mapM_nil, List.forall₂_nil_left_iff]
    exact ⟨fun h => (Except.ok.inj h).symm, fun h => congrArg Except.ok h.symm⟩
  | cons a l ih =>
    rw [List.mapM_cons, bind_eq_ok, List.forall₂_cons_left_iff]
    constructor
    · rintro ⟨b, hb, hrest⟩
      obtain ⟨rest, hmap, heq⟩ := bind_eq_ok.mp hrest
      exact ⟨b, rest, hb, ih.mp hmap, (Except.ok.inj heq).symm⟩
    · rintro ⟨b, rest, hb, hmap, rfl⟩
      exact ⟨b, hb, bind_eq_ok.mpr ⟨rest, ih.mpr hmap, rfl⟩⟩

/-- A loop that never runs into `none` collects a result for each item; `item` says which one
    a result belongs to. -/
theorem exists_mapM_eq_some {P : β → Prop} {item : β → α} {l : List α} {f : α → Option β}
    (h : ∀ a ∈ l, ∃ b, f a = some b ∧ item b = a ∧ P b) :
    ∃ bs, l.mapM f = some bs ∧ bs.map item = l ∧ ∀ b ∈ bs, P b := by
  induction l with
  | nil => exact ⟨[], rfl, rfl, fun _ hb => absurd hb List.not_mem_nil⟩
  | cons a l ih =>
    obtain ⟨b, hb, hitem, hP⟩ := h a List.mem_cons_self
    obtain ⟨bs, hbs, hitems, hall⟩ := ih fun a' ha' => h a' (List.mem_cons_of_mem _ ha')
    refine ⟨b :: bs, ?_, by rw [List.map_cons, hitem, hitems], List.forall_mem_cons.mpr ⟨hP, hall⟩⟩
    rw [List.mapM_cons, hb, hbs]
    rfl

end

end EarlyExit
