import Mathlib

/-!
# Numerals

Two ways of writing numbers without a digit for zero: letters in shortlex order, and symbols of
which a smaller one is subtracted from the next.
-/

/-!
## Bijective numeration

The digits of base `k` stand for `1` to `k`, so that there is none for zero.  Every number is
written by exactly one list of digits, and the order of the numbers is the shortlex order of the
lists.
-/

namespace BijectiveBase

variable {k : ℕ}

/-- The number that digits write, the first one highest; the digit `d` stands for `d + 1`. -/
def value (ds : List (Fin k)) : ℕ := ds.foldl (fun v d => k * v + (d + 1)) 0

@[simp] theorem value_nil : value ([] : List (Fin k)) = 0 := rfl

@[simp] theorem value_concat (ds : List (Fin k)) (d : Fin k) :
    value (ds ++ [d]) = k * value ds + (d + 1) := by
  simp [value]

theorem value_cons (d : Fin k) (ds : List (Fin k)) :
    value (d :: ds) = (d + 1) * k ^ ds.length + value ds := by
  induction ds using List.reverseRecOn with
  | nil => simp [value]
  | append_singleton ds e ih =>
    rw [← List.cons_append, value_concat, ih, value_concat, List.length_append,
      List.length_singleton]
    ring

/-! ## The digits of a number -/

section Digits

variable [NeZero k]

/-- The digits of a number. -/
def digits (k : ℕ) [NeZero k] (n : ℕ) : List (Fin k) :=
  if n = 0 then [] else digits k ((n - 1) / k) ++ [Fin.ofNat k (n - 1)]
termination_by n
decreasing_by
  have := Nat.div_le_self (n - 1) k
  omega

@[simp] theorem digits_zero : digits k 0 = [] := by
  rw [digits, if_pos rfl]

theorem digits_of_ne_zero {n : ℕ} (h : n ≠ 0) :
    digits k n = digits k ((n - 1) / k) ++ [Fin.ofNat k (n - 1)] := by
  rw [digits, if_neg h]

@[simp] theorem value_digits (n : ℕ) : value (digits k n) = n := by
  induction n using Nat.strong_induction_on with
  | _ n ih =>
    by_cases h : n = 0
    · rw [h, digits_zero, value_nil]
    · -- the last digit is what the division leaves, and the others write the quotient
      have hlt : (n - 1) / k < n := by
        have := Nat.div_le_self (n - 1) k
        omega
      have hdiv := Nat.div_add_mod (n - 1) k
      rw [digits_of_ne_zero h, value_concat, ih _ hlt, Fin.val_ofNat]
      omega

@[simp] theorem digits_value (ds : List (Fin k)) : digits k (value ds) = ds := by
  induction ds using List.reverseRecOn with
  | nil => exact digits_zero
  | append_singleton ds d ih =>
    have hne : value (ds ++ [d]) ≠ 0 := by simp
    -- without the 1 that a digit counts more, the division finds the last digit
    have hpred : value (ds ++ [d]) - 1 = k * value ds + d := by simp
    have hdiv : (k * value ds + d) / k = value ds := by
      rw [Nat.mul_add_div (NeZero.pos k), Nat.div_eq_of_lt d.isLt, Nat.add_zero]
    have hdigit : Fin.ofNat k (k * value ds + d) = d := by
      apply Fin.ext
      rw [Fin.val_ofNat, Nat.mul_add_mod, Nat.mod_eq_of_lt d.isLt]
    rw [digits_of_ne_zero hne, hpred, hdiv, hdigit, ih]

theorem digits_eq_nil_iff {n : ℕ} : digits k n = [] ↔ n = 0 := by
  constructor
  · intro h
    rw [← value_digits (k := k) n, h, value_nil]
  · rintro rfl
    exact digits_zero

end Digits

/-! ## The order -/

/-- A number lies between the least ones of its length and of the next length. -/
theorem value_bounds (ds : List (Fin k)) :
    ∑ i ∈ Finset.range ds.length, k ^ i ≤ value ds ∧
      value ds < ∑ i ∈ Finset.range (ds.length + 1), k ^ i := by
  induction ds with
  | nil => simp
  | cons d ds ih =>
    obtain ⟨hle, hlt⟩ := ih
    -- the first digit is worth its power once at least and `k` times at most
    have hlow : k ^ ds.length ≤ (d + 1) * k ^ ds.length :=
      Nat.le_mul_of_pos_left _ (Nat.succ_pos d)
    have hhigh : (d + 1) * k ^ ds.length ≤ k ^ (ds.length + 1) := by
      rw [pow_succ']
      exact Nat.mul_le_mul_right _ d.isLt
    rw [value_cons, List.length_cons, Finset.sum_range_succ _ (ds.length + 1)]
    constructor
    · rw [Finset.sum_range_succ]
      omega
    · omega

theorem value_lt_of_length_lt {ds es : List (Fin k)} (h : ds.length < es.length) :
    value ds < value es := by
  have hsub : Finset.range (ds.length + 1) ⊆ Finset.range es.length :=
    Finset.range_subset_range.mpr h
  calc value ds < ∑ i ∈ Finset.range (ds.length + 1), k ^ i := (value_bounds ds).2
    _ ≤ ∑ i ∈ Finset.range es.length, k ^ i := Finset.sum_le_sum_of_subset hsub
    _ ≤ value es := (value_bounds es).1

theorem value_lt_of_lex {ds es : List (Fin k)} (hlength : ds.length = es.length)
    (h : List.Lex (· < ·) ds es) : value ds < value es := by
  induction h with
  | nil => cases hlength
  | cons _ ih =>
    have hlength := Nat.succ.inj hlength
    rw [value_cons, value_cons, hlength]
    exact Nat.add_lt_add_left (ih hlength) _
  | @rel d ds e es hlt =>
    -- the rest of the digits makes up for less than one of the first digit
    have hlength := Nat.succ.inj hlength
    have hrest : value ds < k ^ es.length + value es := by
      have hhigh := (value_bounds ds).2
      rw [hlength, Finset.sum_range_succ] at hhigh
      have hlow := (value_bounds es).1
      omega
    have hfirst : (d + 1) * k ^ es.length + k ^ es.length ≤ (e + 1) * k ^ es.length := by
      rw [← Nat.succ_mul]
      exact Nat.mul_le_mul_right _ (Nat.succ_le_succ hlt)
    rw [value_cons, value_cons, hlength]
    omega

/-- The order of the numbers is the shortlex order of their digits. -/
theorem shortlex_iff_value_lt {ds es : List (Fin k)} :
    List.Shortlex (· < ·) ds es ↔ value ds < value es := by
  have hmono {ds es : List (Fin k)} (h : List.Shortlex (· < ·) ds es) : value ds < value es := by
    rcases List.shortlex_def.mp h with hlt | ⟨hlength, hlex⟩
    · exact value_lt_of_length_lt hlt
    · exact value_lt_of_lex hlength hlex
  constructor
  · exact hmono
  · intro hlt
    -- one of two different lists is the smaller one, and so is its value
    by_contra hnot
    have heq : ds = es := by
      apply Std.Trichotomous.trichotomous (r := List.Shortlex (· < ·)) ds es hnot
      intro hes
      exact absurd (hmono hes) (Nat.lt_asymm hlt)
    rw [heq] at hlt
    exact Nat.lt_irrefl _ hlt

end BijectiveBase

/-!
## Subtractive numerals

A numeral is a list of symbols with values; a symbol of a smaller value than the one behind it is
subtracted, and every other one is added.  A number is written from a table of values and their
symbols, each value as often as it fits into what is left.
-/

namespace SubtractiveNumerals

variable {α : Type*}

/-- The number that symbols write. -/
def evaluate (value : α → ℕ) : List α → ℤ
  | [] => 0
  | [a] => value a
  | a :: b :: rest =>
    if value a < value b then evaluate value (b :: rest) - value a
    else evaluate value (b :: rest) + value a

/-- Each value of the table as often as it fits into what is left. -/
def numeral : List (ℕ × List α) → ℕ → List α
  | [], _ => []
  | (value, symbols) :: table, remaining =>
    (List.replicate (remaining / value) symbols).flatten ++ numeral table (remaining % value)

/-- No symbol of `ys` stands behind a smaller one at the end of `xs`. -/
def Descends (value : α → ℕ) (xs ys : List α) : Prop :=
  ∀ a ∈ xs.getLast?, ∀ b ∈ ys.head?, value b ≤ value a

instance (value : α → ℕ) (xs ys : List α) : Decidable (Descends value xs ys) :=
  inferInstanceAs (Decidable (∀ a ∈ xs.getLast?, ∀ b ∈ ys.head?, value b ≤ value a))

/-- The symbols of every value write it, and none of them is subtracted from what follows; some
    value is 1. -/
structure Table (value : α → ℕ) (table : List (ℕ × List α)) : Prop where
  evaluate : ∀ e ∈ table, evaluate value e.2 = e.1
  ne_nil : ∀ e ∈ table, e.2 ≠ []
  self : ∀ e ∈ table, Descends value e.2 e.2
  descends : table.Pairwise fun e f => Descends value e.2 f.2
  one : ∃ e ∈ table, e.1 = 1

variable {value : α → ℕ}

theorem evaluate_of_lt {a b : α} (h : value a < value b) (rest : List α) :
    evaluate value (a :: b :: rest) = evaluate value (b :: rest) - value a := by
  rw [evaluate, if_pos h]

theorem evaluate_of_le {a b : α} (h : value b ≤ value a) (rest : List α) :
    evaluate value (a :: b :: rest) = evaluate value (b :: rest) + value a := by
  rw [evaluate, if_neg (Nat.not_lt.mpr h)]

/-- What is not subtracted from what follows adds up with it. -/
theorem evaluate_append {xs ys : List α} (h : Descends value xs ys) :
    evaluate value (xs ++ ys) = evaluate value xs + evaluate value ys := by
  induction xs using evaluate.induct value with
  | case1 => simp [evaluate]
  | case2 a =>
    cases ys with
    | nil => simp [evaluate]
    | cons b ys =>
      rw [List.singleton_append, evaluate_of_le (h a rfl b rfl), evaluate, add_comm]
  | case3 a b rest hlt ih =>
    -- what is behind the first symbol changes by what is appended, its sign does not
    have ih := ih fun c hc => h c (by rw [List.getLast?_cons_cons]; exact hc)
    rw [List.cons_append] at ih
    rw [List.cons_append, List.cons_append, evaluate_of_lt hlt, evaluate_of_lt hlt, ih]
    ring
  | case4 a b rest hle ih =>
    have hle := Nat.not_lt.mp hle
    have ih := ih fun c hc => h c (by rw [List.getLast?_cons_cons]; exact hc)
    rw [List.cons_append] at ih
    rw [List.cons_append, List.cons_append, evaluate_of_le hle, evaluate_of_le hle, ih]
    ring

theorem Descends.append {xs ys zs : List α} (hys : Descends value xs ys) (hne : ys ≠ []) :
    Descends value xs (ys ++ zs) := by
  intro a ha b hb
  rw [List.head?_append_of_ne_nil _ hne] at hb
  exact hys a ha b hb

/-- The same symbols again and again. -/
theorem evaluate_replicate {symbols rest : List α} (hne : symbols ≠ [])
    (hself : Descends value symbols symbols) (hrest : Descends value symbols rest) (n : ℕ) :
    evaluate value ((List.replicate n symbols).flatten ++ rest) =
      n * evaluate value symbols + evaluate value rest := by
  induction n with
  | zero => simp
  | succ n ih =>
    -- behind a copy there is another one, or the rest
    have hnext : Descends value symbols ((List.replicate n symbols).flatten ++ rest) := by
      cases n with
      | zero => simpa using hrest
      | succ n =>
        rw [List.replicate_succ, List.flatten_cons, List.append_assoc]
        exact hself.append hne
    rw [List.replicate_succ, List.flatten_cons, List.append_assoc, evaluate_append hnext, ih]
    push_cast
    ring

/-- The symbols of a numeral are those of the table. -/
theorem exists_of_mem_numeral {table : List (ℕ × List α)} {n : ℕ} {a : α}
    (ha : a ∈ numeral table n) : ∃ e ∈ table, a ∈ e.2 := by
  induction table generalizing n with
  | nil => cases ha
  | cons e table ih =>
    rcases List.mem_append.mp ha with ha | ha
    · obtain ⟨symbols, hsymbols, ha⟩ := List.mem_flatten.mp ha
      rw [(List.mem_replicate.mp hsymbols).2] at ha
      exact ⟨e, List.mem_cons_self, ha⟩
    · obtain ⟨f, hf, ha⟩ := ih ha
      exact ⟨f, List.mem_cons_of_mem _ hf, ha⟩

/-- A numeral begins with the symbols of a value of the table, if with any. -/
theorem exists_head_numeral (table : List (ℕ × List α)) (hne : ∀ e ∈ table, e.2 ≠ []) (n : ℕ) :
    ∀ a ∈ (numeral table n).head?, ∃ e ∈ table, a ∈ e.2.head? := by
  induction table generalizing n with
  | nil => simp [numeral]
  | cons e table ih =>
    obtain ⟨v, symbols⟩ := e
    intro a ha
    rw [numeral] at ha
    cases hcount : n / v with
    | zero =>
      rw [hcount, List.replicate_zero, List.flatten_nil, List.nil_append] at ha
      obtain ⟨f, hf, ha⟩ := ih (fun e he => hne e (List.mem_cons_of_mem _ he)) _ a ha
      exact ⟨f, List.mem_cons_of_mem _ hf, ha⟩
    | succ k =>
      have hsymbols := hne _ List.mem_cons_self
      rw [hcount, List.replicate_succ, List.flatten_cons, List.append_assoc,
        List.head?_append_of_ne_nil _ hsymbols] at ha
      exact ⟨_, List.mem_cons_self, ha⟩

/-- What the values of a table leave of a number. -/
def remainder (table : List (ℕ × List α)) (n : ℕ) : ℕ := table.foldl (fun r e => r % e.1) n

theorem remainder_zero (table : List (ℕ × List α)) : remainder table 0 = 0 := by
  unfold remainder
  induction table with
  | nil => rfl
  | cons e table ih => rw [List.foldl_cons, Nat.zero_mod, ih]

theorem remainder_of_one {table : List (ℕ × List α)} (h : ∃ e ∈ table, e.1 = 1) (n : ℕ) :
    remainder table n = 0 := by
  induction table generalizing n with
  | nil => simp at h
  | cons e table ih =>
    have hstep : remainder (e :: table) n = remainder table (n % e.1) := rfl
    rw [hstep]
    obtain ⟨f, hf, hone⟩ := h
    -- nothing is left behind the value 1, and nothing comes in later
    cases hf with
    | head => rw [hone, Nat.mod_one, remainder_zero]
    | tail _ hf => exact ih ⟨f, hf, hone⟩ _

/-- A numeral writes the number but for what the table leaves. -/
theorem evaluate_numeral_add (table : List (ℕ × List α))
    (heval : ∀ e ∈ table, evaluate value e.2 = e.1) (hne : ∀ e ∈ table, e.2 ≠ [])
    (hself : ∀ e ∈ table, Descends value e.2 e.2)
    (hdesc : table.Pairwise fun e f => Descends value e.2 f.2) (n : ℕ) :
    evaluate value (numeral table n) + remainder table n = n := by
  induction table generalizing n with
  | nil => simp [numeral, remainder, evaluate]
  | cons e table ih =>
    obtain ⟨v, symbols⟩ := e
    obtain ⟨hlater, hdesc⟩ := List.pairwise_cons.mp hdesc
    have hmem : ∀ e ∈ table, e ∈ (v, symbols) :: table := fun e he => List.mem_cons_of_mem _ he
    -- what follows begins with the symbols of a later value
    have hrest : Descends value symbols (numeral table (n % v)) := by
      intro a ha b hb
      obtain ⟨f, hf, hb⟩ := exists_head_numeral table (fun e he => hne e (hmem e he)) _ b hb
      exact hlater f hf a ha b hb
    have ih := ih (fun e he => heval e (hmem e he)) (fun e he => hne e (hmem e he))
      (fun e he => hself e (hmem e he)) hdesc (n % v)
    have hstep : remainder ((v, symbols) :: table) n = remainder table (n % v) := rfl
    have hvalue : evaluate value symbols = v := heval (v, symbols) List.mem_cons_self
    have hdiv : ((n / v : ℕ) * v + (n % v : ℕ) : ℤ) = n := by exact_mod_cast Nat.div_add_mod' n v
    rw [numeral, evaluate_replicate (hne _ List.mem_cons_self) (hself _ List.mem_cons_self) hrest,
      hvalue, hstep]
    linarith

/-- The numeral of a number writes it. -/
theorem Table.evaluate_numeral {table : List (ℕ × List α)} (h : Table value table) (n : ℕ) :
    SubtractiveNumerals.evaluate value (numeral table n) = n := by
  have hsum := evaluate_numeral_add table h.evaluate h.ne_nil h.self h.descends n
  rw [remainder_of_one h.one, Nat.cast_zero, add_zero] at hsum
  exact hsum

end SubtractiveNumerals
