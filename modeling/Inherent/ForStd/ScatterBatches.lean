import Mathlib

/-!
# Batches and their answers

A list is cut into batches of one size, which are answered in any order.  The answers are
recorded under the positions of their inputs in the list, and scattered from there over the slots
of another list.
-/

namespace ScatterBatches

variable {α β ε : Type*}

/-! ## The batches -/

/-- The batches with the offsets of their first elements. -/
def batches (size : Nat) (l : List α) : List (Nat × List α) :=
  (List.range ((l.length + size - 1) / size)).map fun b =>
    (b * size, (l.drop (b * size)).take size)

@[simp] theorem length_batches (size : Nat) (l : List α) :
    (batches size l).length = (l.length + size - 1) / size := by
  simp [batches]

/-- The inputs of a batch. -/
def inputs (size : Nat) (l : List α) (b : Nat) : List α := (l.drop (b * size)).take size

theorem length_inputs (size : Nat) (l : List α) (b : Nat) :
    (inputs size l b).length = min size (l.length - b * size) := by
  rw [inputs, List.length_take, List.length_drop]

/-- The position `k` of the list is in the batch `k / size`. -/
theorem div_lt_length_batches {size : Nat} (hsize : 0 < size) {l : List α} {k : Nat}
    (hk : k < l.length) : k / size < (batches size l).length := by
  rw [length_batches, Nat.lt_div_iff_mul_lt hsize]
  have := Nat.div_mul_le_self k size
  have := Nat.mul_comm size (k / size)
  omega

theorem getElem?_inputs {size : Nat} (hsize : 0 < size) (l : List α) (k : Nat) :
    (inputs size l (k / size))[k % size]? = l[k]? := by
  rw [inputs, List.getElem?_take_of_lt (Nat.mod_lt k hsize), List.getElem?_drop,
    Nat.div_add_mod' k size]

/-! ## Recording the answers -/

/-- The values of a batch, recorded from an offset on. -/
def record : Nat → List β → (Nat → Option β) → Nat → Option β
  | _, [], results => results
  | offset, v :: vs, results => record (offset + 1) vs (Function.update results offset (some v))

theorem record_apply (offset : Nat) (vs : List β) (results : Nat → Option β) (k : Nat) :
    record offset vs results k =
      if offset ≤ k ∧ k < offset + vs.length then vs[k - offset]? else results k := by
  induction vs generalizing offset results with
  | nil => simp only [record, List.length_nil]; rw [if_neg (by omega)]
  | cons v vs ih =>
    rw [record, ih, List.length_cons]
    rcases Nat.lt_trichotomy k offset with hlt | rfl | hgt
    · rw [if_neg (by omega), if_neg (by omega), Function.update_of_ne (by omega)]
    · rw [if_neg (by omega), if_pos (by omega), Function.update_self, Nat.sub_self,
        List.getElem?_cons_zero]
    · have hsub : k - offset = (k - (offset + 1)) + 1 := by omega
      rw [Function.update_of_ne (by omega), hsub, List.getElem?_cons_succ]
      congr 1
      rw [eq_iff_iff]
      omega

/-- The batches of `order` are answered, one after the other; the first error ends it. -/
def collect (answer : Nat → Except ε (List β)) (size : Nat) :
    List Nat → (Nat → Option β) → Except ε (Nat → Option β)
  | [], results => .ok results
  | b :: order, results =>
    match answer b with
    | .error e => .error e
    | .ok vs => collect answer size order (record (b * size) vs results)

variable {answer : Nat → Except ε (List β)} {size : Nat}

theorem div_eq_iff_mem_batch (hsize : 0 < size) {n b k : Nat} :
    (b * size ≤ k ∧ k < b * size + min size (n - b * size)) ↔ k / size = b ∧ k < n := by
  rw [Nat.div_eq_iff hsize]
  omega

/-- A position is recorded when its batch is answered. -/
theorem collect_ok (hsize : 0 < size) {n : Nat} {vs : Nat → List β} {order : List Nat}
    (hanswer : ∀ b ∈ order, answer b = .ok (vs b))
    (hlength : ∀ b ∈ order, (vs b).length = min size (n - b * size))
    (results : Nat → Option β) :
    ∃ filled, collect answer size order results = .ok filled ∧ ∀ k, filled k =
      if k / size ∈ order ∧ k < n then (vs (k / size))[k % size]? else results k := by
  induction order generalizing results with
  | nil => exact ⟨results, rfl, fun k => by simp⟩
  | cons b order ih =>
    obtain ⟨filled, hcollect, hfilled⟩ := ih (fun c hc => hanswer c (List.mem_cons_of_mem b hc))
      (fun c hc => hlength c (List.mem_cons_of_mem b hc)) (record (b * size) (vs b) results)
    refine ⟨filled, ?_, fun k => ?_⟩
    · rw [collect, hanswer b List.mem_cons_self]
      exact hcollect
    · rw [hfilled, record_apply, hlength b List.mem_cons_self]
      simp only [div_eq_iff_mem_batch hsize]
      by_cases hlater : k / size ∈ order ∧ k < n
      · rw [if_pos hlater, if_pos ⟨List.mem_cons_of_mem b hlater.1, hlater.2⟩]
      · rw [if_neg hlater]
        by_cases hhere : k / size = b ∧ k < n
        · have hmod : k - b * size = k % size := by
            rw [← hhere.1, Nat.mod_eq_sub, Nat.mul_comm]
          rw [if_pos hhere, if_pos ⟨hhere.1 ▸ List.mem_cons_self, hhere.2⟩, hmod, hhere.1]
        · rw [if_neg hhere, if_neg]
          rintro ⟨hmem, hk⟩
          rcases List.mem_cons.mp hmem with h | h
          · exact hhere ⟨h, hk⟩
          · exact hlater ⟨h, hk⟩

/-- When a batch fails, nothing is collected. -/
theorem collect_error (size : Nat) {b : Nat} {e : ε} {order : List Nat} (hb : b ∈ order)
    (he : answer b = .error e) (results : Nat → Option β) :
    ∃ c ∈ order, ∃ e', answer c = .error e' ∧ collect answer size order results = .error e' := by
  induction order generalizing results with
  | nil => cases hb
  | cons c order ih =>
    unfold collect
    cases hc : answer c with
    | error e' => exact ⟨c, List.mem_cons_self, e', hc, rfl⟩
    | ok vs =>
      have hne : b ≠ c := by
        rintro rfl
        rw [he] at hc
        cases hc
      obtain ⟨d, hd, e', hd', hcollect⟩ :=
        ih (List.mem_of_ne_of_mem hne hb) (record (c * size) vs results)
      exact ⟨d, List.mem_cons_of_mem c hd, e', hd', hcollect⟩

/-! ## Scattering -/

/-- The recorded values from the position `j` on, set at the slots; `none` if one is missing. -/
def scatter (results : Nat → Option β) : Nat → List Nat → List β → Option (List β)
  | _, [], out => some out
  | j, i :: slots, out =>
    match results j with
    | none => none
    | some v => scatter results (j + 1) slots (out.set i v)

theorem scatter_some {results : Nat → Option β} (w : Nat → β) {slots : List Nat} (j : Nat)
    (hresults : ∀ i < slots.length, results (j + i) = some (w (j + i))) (hnodup : slots.Nodup)
    (out : List β) :
    ∃ filled, scatter results j slots out = some filled ∧ filled.length = out.length ∧
      ∀ p < out.length,
        filled[p]? = if p ∈ slots then some (w (j + slots.idxOf p)) else out[p]? := by
  induction slots generalizing j out with
  | nil => exact ⟨out, rfl, rfl, fun p _ => by simp⟩
  | cons i slots ih =>
    obtain ⟨hi, hnodup⟩ := List.nodup_cons.mp hnodup
    have hlater : ∀ i < slots.length, results (j + 1 + i) = some (w (j + 1 + i)) := fun i hi => by
      have := hresults (i + 1) (by simpa using hi)
      rwa [show j + 1 + i = j + (i + 1) by omega]
    obtain ⟨filled, hscatter, hlength, hfilled⟩ := ih (j + 1) hlater hnodup (out.set i (w j))
    rw [List.length_set] at hlength hfilled
    have hfirst : results j = some (w j) := hresults 0 (by simp)
    refine ⟨filled, ?_, hlength, fun p hp => ?_⟩
    · rw [scatter, hfirst]
      exact hscatter
    · rw [hfilled p hp]
      rcases eq_or_ne i p with rfl | hne
      · rw [if_neg hi, if_pos List.mem_cons_self, List.idxOf_cons_self, Nat.add_zero,
          List.getElem?_set_self hp]
      · by_cases hmem : p ∈ slots
        · rw [if_pos hmem, if_pos (List.mem_cons_of_mem i hmem), List.idxOf_cons_ne slots hne]
          congr 2
          omega
        · rw [if_neg hmem, if_neg (by simp [hmem, hne.symm]), List.getElem?_set_ne hne]

end ScatterBatches
