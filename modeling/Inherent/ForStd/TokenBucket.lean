import Mathlib

/-!
# Token buckets

A bucket holds at most `cap` tokens, gains `rate` tokens for each unit of time, and pays
one token for each grant.  `Metered` relates the tokens of a bucket to the times of all
grants made from it so far; it is kept by waiting (`Metered.wait`) and by granting
(`Metered.grant`), and it bounds the grants of every interval (`Metered.within`).
-/

namespace TokenBucket

variable {𝕜 : Type*} [LinearOrder 𝕜]

/-- Number of the grants from time `a` to time `b`. -/
def granted (grants : List 𝕜) (a b : 𝕜) : Nat := grants.countP fun t => a ≤ t ∧ t ≤ b

@[simp] theorem granted_nil (a b : 𝕜) : granted [] a b = 0 := rfl

/-- A grant counts in the intervals that hold its time. -/
theorem granted_append_singleton (grants : List 𝕜) (t a b : 𝕜) :
    granted (grants ++ [t]) a b = granted grants a b + if a ≤ t ∧ t ≤ b then 1 else 0 := by
  simp only [granted, List.countP_append, List.countP_singleton, decide_eq_true_eq]

/-- Nothing is granted from a time after the last grant. -/
theorem granted_eq_zero {grants : List 𝕜} {a b now : 𝕜} (hpast : ∀ t ∈ grants, t ≤ now)
    (ha : now < a) : granted grants a b = 0 := by
  rw [granted, List.countP_eq_zero]
  intro t ht
  have hlt : t < a := (hpast t ht).trans_lt ha
  simp [hlt.not_ge]

/-- The end of an interval may be moved to any time after the last grant. -/
theorem granted_eq_of_past {grants : List 𝕜} {a b now : 𝕜} (hpast : ∀ t ∈ grants, t ≤ now)
    (hb : now ≤ b) : granted grants a b = granted grants a now := by
  apply List.countP_congr
  intro t ht
  have hnow : t ≤ now := hpast t ht
  simp [hnow, hnow.trans hb]

variable [Field 𝕜]

/-- The tokens at `now` of a bucket that held `tokens` at the time `since`. -/
def refill (cap rate tokens since now : 𝕜) : 𝕜 := min cap (tokens + (now - since) * rate)

/-- The tokens of a bucket at `now`, against the times of all grants from it. -/
structure Metered (cap rate : 𝕜) (grants : List 𝕜) (tokens now : 𝕜) : Prop where
  past : ∀ t ∈ grants, t ≤ now
  nonneg : 0 ≤ tokens
  covered : ∀ a ≤ now, granted grants a now + tokens ≤ cap + rate * (now - a)
  within : ∀ a b, a ≤ b → granted grants a b ≤ cap + rate * (b - a)

section

variable [IsStrictOrderedRing 𝕜] {cap rate tokens tokens' now now' : 𝕜} {grants : List 𝕜}

/-- A bucket without grants, full or not. -/
theorem metered_nil (hrate : 0 ≤ rate) (h0 : 0 ≤ tokens) (hcap : tokens ≤ cap) :
    Metered cap rate [] tokens now where
  past := by simp
  nonneg := h0
  covered a ha := by
    have hgain : 0 ≤ rate * (now - a) := mul_nonneg hrate (sub_nonneg.mpr ha)
    simp only [granted_nil, Nat.cast_zero]
    linarith
  within a b hab := by
    have hgain : 0 ≤ rate * (b - a) := mul_nonneg hrate (sub_nonneg.mpr hab)
    simp only [granted_nil, Nat.cast_zero]
    linarith

/-- With time the tokens may grow, up to what the refill gives. -/
theorem Metered.wait (h : Metered cap rate grants tokens now) (hrate : 0 ≤ rate)
    (hnow : now ≤ now') (h0 : 0 ≤ tokens') (hle : tokens' ≤ refill cap rate tokens now now') :
    Metered cap rate grants tokens' now' where
  past t ht := (h.past t ht).trans hnow
  nonneg := h0
  covered a ha := by
    have hcap : tokens' ≤ cap := hle.trans (min_le_left _ _)
    have hgain : tokens' ≤ tokens + (now' - now) * rate := hle.trans (min_le_right _ _)
    by_cases hanow : a ≤ now
    · -- the interval begins before the wait, which adds no grant to it
      have hcovered := h.covered a hanow
      rw [granted_eq_of_past h.past hnow]
      linarith
    · have hzero : granted grants a now' = 0 := granted_eq_zero h.past (not_le.mp hanow)
      have hrest : 0 ≤ rate * (now' - a) := mul_nonneg hrate (sub_nonneg.mpr ha)
      rw [hzero, Nat.cast_zero]
      linarith
  within := h.within

theorem Metered.refill (h : Metered cap rate grants tokens now) (hrate : 0 ≤ rate)
    (hcap : 0 ≤ cap) (hnow : now ≤ now') :
    Metered cap rate grants (refill cap rate tokens now now') now' := by
  apply h.wait hrate hnow _ le_rfl
  have hgain : 0 ≤ (now' - now) * rate := mul_nonneg (sub_nonneg.mpr hnow) hrate
  exact le_min hcap (add_nonneg h.nonneg hgain)

/-- A bucket that is full again may be replaced by a new one. -/
theorem Metered.renew (h : Metered cap rate grants tokens now) (hrate : 0 ≤ rate)
    (hcap : 0 ≤ cap) (hnow : now ≤ now') (hfull : cap ≤ tokens + (now' - now) * rate) :
    Metered cap rate grants cap now' :=
  h.wait hrate hnow hcap (le_min le_rfl hfull)

/-- A grant takes one token. -/
theorem Metered.grant (h : Metered cap rate grants tokens now) (hrate : 0 ≤ rate)
    (htoken : 1 ≤ tokens) : Metered cap rate (grants ++ [now]) (tokens - 1) now := by
  -- the interval up to the grant gains one grant and loses one token
  have hcovered : ∀ a ≤ now,
      granted (grants ++ [now]) a now + (tokens - 1) ≤ cap + rate * (now - a) := by
    intro a ha
    have hold := h.covered a ha
    rw [granted_append_singleton, if_pos ⟨ha, le_rfl⟩]
    push_cast
    linarith
  refine ⟨?_, sub_nonneg.mpr htoken, hcovered, ?_⟩
  · intro t ht
    rcases List.mem_append.mp ht with ht | ht
    · exact h.past t ht
    · exact (List.mem_singleton.mp ht).le
  · intro a b hab
    by_cases hin : a ≤ now ∧ now ≤ b
    · -- the grants of the interval are those up to now, and the rest of it adds its gain
      have hpast : ∀ t ∈ grants ++ [now], t ≤ now := by
        intro t ht
        rcases List.mem_append.mp ht with ht | ht
        · exact h.past t ht
        · exact (List.mem_singleton.mp ht).le
      have hupto := hcovered a hin.1
      have hgain : 0 ≤ rate * (b - now) := mul_nonneg hrate (sub_nonneg.mpr hin.2)
      rw [granted_eq_of_past hpast hin.2]
      linarith
    · have hold := h.within a b hab
      rw [granted_append_singleton, if_neg hin, add_zero]
      exact hold

end

end TokenBucket
