import Mathlib

/-!
# Base32

The RFC 4648 encoding of bytes: every five bytes are one number of 40 bits, written with
eight digits of the alphabet, and a last group of fewer bytes is filled up with zero bits and
padded with `=`.  The padding carries nothing: what stands before it decodes to the bytes
(`exists_body`).
-/

namespace Base32

/-- The digits, in the order of their values. -/
def alphabet : List Char :=
  ['A', 'B', 'C', 'D', 'E', 'F', 'G', 'H', 'I', 'J', 'K', 'L', 'M', 'N', 'O', 'P', 'Q', 'R', 'S',
    'T', 'U', 'V', 'W', 'X', 'Y', 'Z', '2', '3', '4', '5', '6', '7']

/-- The digit with the given value. -/
def digit (n : Nat) : Char := alphabet.getD n '='

/-- The value of a digit. -/
def value? (c : Char) : Option Nat := alphabet.findIdx? (· == c)

/-- Five bytes as a number, the first byte highest. -/
def ofBytes (a b c d e : UInt8) : Nat :=
  (((a.toNat * 256 + b.toNat) * 256 + c.toNat) * 256 + d.toNat) * 256 + e.toNat

/-- The five bytes of a number of 40 bits. -/
def toBytes (v : Nat) : List UInt8 :=
  [v / 2 ^ 32 % 256, v / 2 ^ 24 % 256, v / 2 ^ 16 % 256, v / 2 ^ 8 % 256, v % 256].map
    UInt8.ofNat

/-- The eight digits of a number of 40 bits. -/
def group (v : Nat) : List Char :=
  (List.range 8).map fun i => digit (v / 2 ^ (35 - 5 * i) % 32)

/-- The encoding, with its padding. -/
def encode : List UInt8 → List Char
  | a :: b :: c :: d :: e :: rest => group (ofBytes a b c d e) ++ encode rest
  | [a, b, c, d] => (group (ofBytes a b c d 0)).take 7 ++ List.replicate 1 '='
  | [a, b, c] => (group (ofBytes a b c 0 0)).take 5 ++ List.replicate 3 '='
  | [a, b] => (group (ofBytes a b 0 0 0)).take 4 ++ List.replicate 4 '='
  | [a] => (group (ofBytes a 0 0 0 0)).take 2 ++ List.replicate 6 '='
  | [] => []

/-- The number that digits write. -/
def number? (digits : List Char) : Option Nat :=
  digits.foldlM (fun v c => (value? c).map (v * 32 + ·)) 0

/-- The bytes of a group of at most eight digits: missing digits are zero, and the bytes that
    only they reach into are none. -/
def decodeGroup (digits : List Char) : Option (List UInt8) :=
  (number? (digits ++ List.replicate (8 - digits.length) 'A')).map fun v =>
    (toBytes v).take (5 * digits.length / 8)

/-- The bytes of an encoding without its padding.  No number of bytes leaves one, three or
    six digits for the last group. -/
def decode? : List Char → Option (List UInt8)
  | d₁ :: d₂ :: d₃ :: d₄ :: d₅ :: d₆ :: d₇ :: d₈ :: rest => do
    let bytes ← decodeGroup [d₁, d₂, d₃, d₄, d₅, d₆, d₇, d₈]
    let bytes' ← decode? rest
    some (bytes ++ bytes')
  | [] => some []
  | digits => if digits.length ∈ [2, 4, 5, 7] then decodeGroup digits else none

example : String.ofList (encode "foobar".toUTF8.data.toList) = "MZXW6YTBOI======" := by decide

/-! ## One group -/

theorem digit_mem {n : Nat} (h : n < 32) : digit n ∈ alphabet := by
  have hall : ∀ n ∈ List.range 32, digit n ∈ alphabet := by decide
  exact hall n (List.mem_range.mpr h)

theorem value?_digit {n : Nat} (h : n < 32) : value? (digit n) = some n := by
  have hall : ∀ n ∈ List.range 32, value? (digit n) = some n := by decide
  exact hall n (List.mem_range.mpr h)

theorem mem_alphabet_of_mem_group {v : Nat} {c : Char} (hc : c ∈ group v) : c ∈ alphabet := by
  obtain ⟨i, -, rfl⟩ := List.mem_map.mp hc
  exact digit_mem (Nat.mod_lt _ (by decide))

@[simp] theorem length_group (v : Nat) : (group v).length = 8 := by
  simp [group]

/-- One digit more extends the number that the digits before it write. -/
theorem extend_digit (v m : Nat) : v / 2 ^ (m + 5) * 32 + v / 2 ^ m % 32 = v / 2 ^ m := by
  rw [Nat.pow_add, ← Nat.div_div_eq_div_mul]
  exact Nat.div_add_mod' (v / 2 ^ m) 32

/-- The first `k` digits of a number write its highest `5 * k` bits. -/
theorem number?_map_range {v : Nat} (hv : v < 2 ^ 40) {k : Nat} (hk : k ≤ 8) :
    number? ((List.range k).map fun i => digit (v / 2 ^ (35 - 5 * i) % 32)) =
      some (v / 2 ^ (40 - 5 * k)) := by
  induction k with
  | zero =>
    show some 0 = some (v / 2 ^ 40)
    rw [Nat.div_eq_of_lt hv]
  | succ k ih =>
    have hlt : v / 2 ^ (35 - 5 * k) % 32 < 32 := Nat.mod_lt _ (by decide)
    have hbefore : 40 - 5 * k = 35 - 5 * k + 5 := by omega
    have hafter : 40 - 5 * (k + 1) = 35 - 5 * k := by omega
    have ih := ih (by omega)
    unfold number? at ih ⊢
    rw [List.range_succ, List.map_append, List.foldlM_append, ih, hbefore, hafter]
    simp [value?_digit hlt, extend_digit]

/-- The digits of a number write it. -/
theorem number?_group {v : Nat} (hv : v < 2 ^ 40) : number? (group v) = some v := by
  simpa [group] using number?_map_range hv (Nat.le_refl 8)

/-- When a number has zero bits behind its first digits, all digits behind them are zero. -/
theorem drop_group {v k : Nat} (hzero : 2 ^ (40 - 5 * k) ∣ v) :
    (group v).drop k = List.replicate (8 - k) 'A' := by
  rw [List.eq_replicate_iff]
  refine ⟨by simp, ?_⟩
  intro c hc
  obtain ⟨i, hi, rfl⟩ := List.mem_drop_iff_getElem.mp hc
  rw [length_group] at hi
  obtain ⟨w, rfl⟩ : 2 ^ (35 - 5 * (k + i) + 5) ∣ v := by
    refine Nat.dvd_trans (Nat.pow_dvd_pow 2 ?_) hzero
    omega
  have hdigit : 2 ^ (35 - 5 * (k + i) + 5) * w / 2 ^ (35 - 5 * (k + i)) % 32 = 0 := by
    rw [Nat.pow_add, Nat.mul_assoc, Nat.mul_div_cancel_left _ (Nat.two_pow_pos _)]
    exact Nat.mul_mod_right 32 w
  simp only [group, List.getElem_map, List.getElem_range, hdigit]
  decide

theorem ofBytes_lt (a b c d e : UInt8) : ofBytes a b c d e < 2 ^ 40 := by
  have ha := a.toNat_lt
  have hb := b.toNat_lt
  have hc := c.toNat_lt
  have hd := d.toNat_lt
  have he := e.toNat_lt
  unfold ofBytes
  omega

/-- The bytes of a number are those that it was made of. -/
theorem toBytes_ofBytes (a b c d e : UInt8) : toBytes (ofBytes a b c d e) = [a, b, c, d, e] := by
  have ha := a.toNat_lt
  have hb := b.toNat_lt
  have hc := c.toNat_lt
  have hd := d.toNat_lt
  have he := e.toNat_lt
  have h₁ : ofBytes a b c d e / 2 ^ 32 % 256 = a.toNat := by unfold ofBytes; omega
  have h₂ : ofBytes a b c d e / 2 ^ 24 % 256 = b.toNat := by unfold ofBytes; omega
  have h₃ : ofBytes a b c d e / 2 ^ 16 % 256 = c.toNat := by unfold ofBytes; omega
  have h₄ : ofBytes a b c d e / 2 ^ 8 % 256 = d.toNat := by unfold ofBytes; omega
  have h₅ : ofBytes a b c d e % 256 = e.toNat := by unfold ofBytes; omega
  simp only [toBytes, h₁, h₂, h₃, h₄, h₅, List.map_cons, List.map_nil, UInt8.ofNat_toNat]

/-- The first digits of a number decode to its first bytes, when the number has zero bits
    behind them. -/
theorem decodeGroup_take {v k : Nat} (hv : v < 2 ^ 40) (hk : k ≤ 8)
    (hzero : 2 ^ (40 - 5 * k) ∣ v) :
    decodeGroup ((group v).take k) = some ((toBytes v).take (5 * k / 8)) := by
  have hlen : ((group v).take k).length = k := by
    rw [List.length_take, length_group, Nat.min_eq_left hk]
  have hfill : (group v).take k ++ List.replicate (8 - k) 'A' = group v := by
    rw [← drop_group hzero, List.take_append_drop]
  rw [decodeGroup, hlen, hfill, number?_group hv, Option.map_some]

/-! ## All bytes -/

/-- A whole group stands before the encoding of the rest. -/
theorem decode?_group_append {a b c d e : UInt8} (rest : List Char) :
    decode? (group (ofBytes a b c d e) ++ rest) =
      (decode? rest).map ([a, b, c, d, e] ++ ·) := by
  have hgroup := decodeGroup_take (ofBytes_lt a b c d e) (Nat.le_refl 8) (Nat.one_dvd _)
  rw [List.take_of_length_le (by simp), toBytes_ofBytes] at hgroup
  have hrange : List.range 8 = [0, 1, 2, 3, 4, 5, 6, 7] := by decide
  simp only [group, hrange, List.map_cons, List.map_nil] at hgroup ⊢
  simp only [List.cons_append, List.nil_append, decode?, hgroup]
  cases decode? rest <;> rfl

/-- A last group of fewer digits. -/
theorem decode?_of_length {digits : List Char} (h : digits.length ∈ [2, 4, 5, 7]) :
    decode? digits = decodeGroup digits := by
  unfold decode?
  split
  · simp only [List.length_cons, List.mem_cons, List.not_mem_nil, or_false] at h
    omega
  · simp at h
  · rw [if_pos h]

/-- The digits of a number that is zero behind its first bytes. -/
theorem decode?_take {v k : Nat} (hv : v < 2 ^ 40) (hk : k ∈ [2, 4, 5, 7])
    (hzero : 2 ^ (40 - 5 * k) ∣ v) :
    decode? ((group v).take k) = some ((toBytes v).take (5 * k / 8)) := by
  have hle : k ≤ 8 := by
    simp only [List.mem_cons, List.not_mem_nil, or_false] at hk
    omega
  have hlen : ((group v).take k).length = k := by
    rw [List.length_take, length_group, Nat.min_eq_left hle]
  rw [decode?_of_length (by rwa [hlen]), decodeGroup_take hv hle hzero]

/-- `body` stands for the bytes, and it has no padding. -/
def IsBody (body : List Char) (bytes : List UInt8) : Prop :=
  (∀ c ∈ body, c ∈ alphabet) ∧ decode? body = some bytes

/-- A whole group before a body. -/
theorem IsBody.group_append {body : List Char} {rest : List UInt8} (h : IsBody body rest)
    (a b c d e : UInt8) :
    IsBody (group (ofBytes a b c d e) ++ body) (a :: b :: c :: d :: e :: rest) := by
  refine ⟨?_, ?_⟩
  · intro x hx
    cases List.mem_append.mp hx with
    | inl hx => exact mem_alphabet_of_mem_group hx
    | inr hx => exact h.1 x hx
  · rw [decode?_group_append, h.2]
    rfl

/-- The first digits of a last group. -/
theorem isBody_take (a b c d : UInt8) {k : Nat} (hk : k ∈ [2, 4, 5, 7])
    (hzero : 2 ^ (40 - 5 * k) ∣ ofBytes a b c d 0) :
    IsBody ((group (ofBytes a b c d 0)).take k) ([a, b, c, d, 0].take (5 * k / 8)) := by
  refine ⟨?_, ?_⟩
  · intro x hx
    exact mem_alphabet_of_mem_group (List.mem_of_mem_take hx)
  · rw [decode?_take (ofBytes_lt a b c d 0) hk hzero, toBytes_ofBytes]

/-- An encoding is digits and padding, and the digits alone decode to the bytes. -/
theorem exists_body (bytes : List UInt8) :
    ∃ body pad, encode bytes = body ++ List.replicate pad '=' ∧ IsBody body bytes := by
  fun_induction encode bytes with
  | case1 a b c d e rest ih =>
    obtain ⟨body, pad, hencode, hbody⟩ := ih
    refine ⟨group (ofBytes a b c d e) ++ body, pad, ?_, hbody.group_append a b c d e⟩
    rw [hencode, List.append_assoc]
  | case2 a b c d =>
    have hzero : 2 ^ 5 ∣ ofBytes a b c d 0 := by
      simp only [ofBytes, UInt8.toNat_zero]
      omega
    have hk : 7 ∈ [2, 4, 5, 7] := by decide
    exact ⟨_, 1, rfl, isBody_take a b c d hk hzero⟩
  | case3 a b c =>
    have hzero : 2 ^ 15 ∣ ofBytes a b c 0 0 := by
      simp only [ofBytes, UInt8.toNat_zero]
      omega
    have hk : 5 ∈ [2, 4, 5, 7] := by decide
    exact ⟨_, 3, rfl, isBody_take a b c 0 hk hzero⟩
  | case4 a b =>
    have hzero : 2 ^ 20 ∣ ofBytes a b 0 0 0 := by
      simp only [ofBytes, UInt8.toNat_zero]
      omega
    have hk : 4 ∈ [2, 4, 5, 7] := by decide
    exact ⟨_, 4, rfl, isBody_take a b 0 0 hk hzero⟩
  | case5 a =>
    have hzero : 2 ^ 30 ∣ ofBytes a 0 0 0 0 := by
      simp only [ofBytes, UInt8.toNat_zero]
      omega
    have hk : 2 ∈ [2, 4, 5, 7] := by decide
    exact ⟨_, 6, rfl, isBody_take a 0 0 0 hk hzero⟩
  | case6 => exact ⟨[], 0, rfl, by simp [IsBody, decode?]⟩

end Base32
