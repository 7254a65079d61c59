import Inherent.Native.PyLines

/-!
# Numbers in Python strings

The decimal digits of Unicode, `int(text)`, and the `02d` format.
-/

namespace PyStr

/-- The digits zero of Unicode (category `Nd`): the nine characters behind each of them are
    the digits 1 to 9 of the same script. -/
def decimalZeros : List Nat :=
  [0x30, 0x660, 0x6f0, 0x7c0, 0x966, 0x9e6, 0xa66, 0xae6, 0xb66, 0xbe6, 0xc66, 0xce6, 0xd66,
    0xde6, 0xe50, 0xed0, 0xf20, 0x1040, 0x1090, 0x17e0, 0x1810, 0x1946, 0x19d0, 0x1a80, 0x1a90,
    0x1b50, 0x1bb0, 0x1c40, 0x1c50, 0xa620, 0xa8d0, 0xa900, 0xa9d0, 0xa9f0, 0xaa50, 0xabf0,
    0xff10, 0x104a0, 0x10d30, 0x11066, 0x110f0, 0x11136, 0x111d0, 0x112f0, 0x11450, 0x114d0,
    0x11650, 0x116c0, 0x11730, 0x118e0, 0x11950, 0x11c50, 0x11d50, 0x11da0, 0x11f50, 0x16a60,
    0x16ac0, 0x16b50, 0x1d7ce, 0x1d7d8, 0x1d7e2, 0x1d7ec, 0x1d7f6, 0x1e140, 0x1e2f0, 0x1e4f0,
    0x1e950, 0x1fbf0]

/-- The value of a decimal digit. -/
def digitValue? (c : Char) : Option Nat :=
  (decimalZeros.find? fun z => z ≤ c.toNat && c.toNat < z + 10).map (c.toNat - ·)

/-- `\d` of a regular expression on `str`. -/
def isDecimal (c : Char) : Bool := (digitValue? c).isSome

/-- The digits behind a digit: one underscore may stand between two of them. -/
def digitsFrom (value : Nat) : List Char → Option Nat
  | [] => some value
  | '_' :: c :: rest => do digitsFrom (value * 10 + (← digitValue? c)) rest
  | c :: rest => do digitsFrom (value * 10 + (← digitValue? c)) rest

/-- The digits of a number, at least one. -/
def digits? : List Char → Option Nat
  | [] => none
  | c :: rest => do digitsFrom (← digitValue? c) rest

/-- `int(text)`, or `none` where it raises. -/
def int? (text : List Char) : Option Int :=
  match strip text with
  | '-' :: rest => (digits? rest).map fun n => -(n : Int)
  | '+' :: rest => (digits? rest).map fun n => (n : Int)
  | rest => (digits? rest).map fun n => (n : Int)

/-- `f"{n:02d}"`; the width counts the sign. -/
def pad2 : Int → List Char
  | .ofNat n => if n < 10 then '0' :: ofNat n else ofNat n
  | .negSucc n => '-' :: ofNat (n + 1)

example : int? " -1_0 ".toList = some (-10) ∧ int? "1__0".toList = none ∧ int? [] = none := by
  decide

/-! ## Numbers in decimal digits -/

theorem isDigit_of_mem_ofNat {n : Nat} {c : Char} (h : c ∈ ofNat n) : c.isDigit = true := by
  rw [ofNat, Nat.toList_repr] at h
  exact Nat.isDigit_of_mem_toDigits (by decide) (by decide) h

theorem ofNat_ne_nil (n : Nat) : ofNat n ≠ [] := by
  rw [ofNat, Nat.toList_repr]
  exact Nat.toDigits_ne_nil

theorem ofNat_inj {m n : Nat} (h : ofNat m = ofNat n) : m = n := by
  rw [ofNat, ofNat, Nat.toList_repr, Nat.toList_repr] at h
  have hvalue := congrArg (fun digits => Nat.ofDigitChars 10 digits 0) h
  simpa only [Nat.ofDigitChars_ten_toDigits] using hvalue

theorem isDecimal_of_isDigit {c : Char} (h : c.isDigit = true) : isDecimal c = true := by
  rw [Char.isDigit, Bool.and_eq_true, decide_eq_true_iff, decide_eq_true_iff] at h
  have hlow : 0x30 ≤ c.toNat := h.1
  have hhigh : c.toNat < 0x30 + 10 := Nat.lt_succ_of_le h.2
  simp only [isDecimal, digitValue?, decimalZeros, List.find?_cons, hlow, hhigh, decide_true,
    Bool.and_self]
  rfl

end PyStr
