import Mathlib

/-!
# Fenced ownership

A fence says which writer owns a record and with what stamp the owner claimed it.
A claim is taken unless the record carries a later stamp; a write is permitted to
the owner, and to anyone while nobody owns the record.

When the claims carry distinct stamps and every writer claims before it writes,
the owner is always the claimant with the greatest stamp (`Tracks`), so the writers
that are permitted come in the order of their stamps.
-/

/-- The owner of a record and the stamp of its claim. -/
structure Fence (ι τ : Type*) where
  owner : Option ι
  stamp : Option τ
  deriving DecidableEq

namespace Fence

variable {ι τ : Type*}

/-- The fence of a record that nobody has claimed. -/
def unclaimed : Fence ι τ := ⟨none, none⟩

/-- A write of `i` is permitted. -/
def Permits (f : Fence ι τ) (i : ι) : Prop := f.owner = none ∨ f.owner = some i

section

variable [LinearOrder τ]

/-- A claim of `i` with the stamp `t`: refused when the record carries a later one. -/
def claim (f : Fence ι τ) (i : ι) (t : τ) : Fence ι τ :=
  if ∀ u ∈ f.stamp, u ≤ t then ⟨some i, some t⟩ else f

/-- Each claimant has one stamp, and no two claimants share one. -/
def Distinct (claims : List (ι × τ)) : Prop :=
  ∀ p ∈ claims, ∀ q ∈ claims, p.1 = q.1 ↔ p.2 = q.2

/-- The fence is the claim with the greatest stamp among `claims`. -/
def Tracks (f : Fence ι τ) (claims : List (ι × τ)) : Prop :=
  (claims = [] ∧ f = unclaimed) ∨
    ∃ p ∈ claims, f = ⟨some p.1, some p.2⟩ ∧ ∀ q ∈ claims, q.2 ≤ p.2

theorem tracks_unclaimed : Tracks (unclaimed : Fence ι τ) [] := Or.inl ⟨rfl, rfl⟩

/-- A claim, taken or refused, keeps the fence at the greatest stamp. -/
theorem Tracks.claim {f : Fence ι τ} {claims : List (ι × τ)} (h : f.Tracks claims)
    (i : ι) (t : τ) : (f.claim i t).Tracks ((i, t) :: claims) := by
  unfold Fence.claim
  cases h with
  | inl h =>
    obtain ⟨rfl, rfl⟩ := h
    have hfree : ∀ u ∈ (unclaimed : Fence ι τ).stamp, u ≤ t := fun u hu => nomatch hu
    rw [if_pos hfree]
    refine Or.inr ⟨(i, t), List.mem_cons_self, rfl, fun q hq => ?_⟩
    rw [List.mem_singleton.mp hq]
  | inr h =>
    obtain ⟨p, hp, rfl, hmax⟩ := h
    by_cases hle : p.2 ≤ t
    · have hfree : ∀ u ∈ (⟨some p.1, some p.2⟩ : Fence ι τ).stamp, u ≤ t := by
        intro u hu
        exact Option.some.inj hu ▸ hle
      rw [if_pos hfree]
      refine Or.inr ⟨(i, t), List.mem_cons_self, rfl, fun q hq => ?_⟩
      cases List.mem_cons.mp hq with
      | inl hq => rw [hq]
      | inr hq => exact le_trans (hmax q hq) hle
    · have hlate : ¬ ∀ u ∈ (⟨some p.1, some p.2⟩ : Fence ι τ).stamp, u ≤ t :=
        fun hall => hle (hall p.2 rfl)
      rw [if_neg hlate]
      refine Or.inr ⟨p, List.mem_cons_of_mem _ hp, rfl, fun q hq => ?_⟩
      cases List.mem_cons.mp hq with
      | inl hq => rw [hq]; exact le_of_lt (lt_of_not_ge hle)
      | inr hq => exact hmax q hq

/-- A permitted writer that has claimed carries the greatest stamp. -/
theorem Tracks.le_of_permits {f : Fence ι τ} {claims : List (ι × τ)} (h : f.Tracks claims)
    (hd : Distinct claims) {p q : ι × τ} (hp : p ∈ claims) (hperm : f.Permits p.1)
    (hq : q ∈ claims) : q.2 ≤ p.2 := by
  cases h with
  | inl h =>
    obtain ⟨rfl, -⟩ := h
    exact absurd hp List.not_mem_nil
  | inr h =>
    obtain ⟨m, hm, rfl, hmax⟩ := h
    have howner : m.1 = p.1 := by
      cases hperm with
      | inl hnone => exact nomatch hnone
      | inr hsome => exact Option.some.inj hsome
    have hstamp : m.2 = p.2 := (hd m hm p hp).mp howner
    exact hstamp ▸ hmax q hq

/-- A permitted claimant that asserts its ownership again changes nothing. -/
theorem Tracks.owner_of_permits {f : Fence ι τ} {claims : List (ι × τ)} (h : f.Tracks claims)
    {p : ι × τ} (hp : p ∈ claims) (hperm : f.Permits p.1) : f.owner = some p.1 := by
  cases h with
  | inl h =>
    obtain ⟨rfl, -⟩ := h
    exact absurd hp List.not_mem_nil
  | inr h =>
    obtain ⟨m, -, rfl, -⟩ := h
    exact hperm.resolve_left (Option.some_ne_none _)

end

end Fence
