import Inherent.ForStd.Utf8Decoding
import Inherent.Native.PyLines

/-!
# URLs in Python strings

`urllib.parse.unquote`: percent-encoded bytes are put between the ASCII characters around
them, and each run of ASCII characters is decoded as UTF-8.
-/

namespace PyStr

/-- The value of a hexadecimal digit. -/
def hexValue? (c : Char) : Option Nat :=
  let n := c.toNat
  if 0x30 ≤ n ∧ n ≤ 0x39 then some (n - 0x30)
  else if 0x41 ≤ n ∧ n ≤ 0x46 then some (n - 0x37)
  else if 0x61 ≤ n ∧ n ≤ 0x66 then some (n - 0x57)
  else none

/-- The byte that two hexadecimal digits write. -/
def hexByte? (a b : Char) : Option UInt8 := do
  return UInt8.ofNat ((← hexValue? a) * 16 + (← hexValue? b))

/-- The byte that the two characters behind a `%` write. -/
def escaped? : List Char → Option UInt8
  | a :: b :: _ => hexByte? a b
  | _ => none

/-- A character that is no percent-encoding: a byte if it is ASCII. -/
def plainPart (c : Char) : Char ⊕ UInt8 :=
  if c.toNat < 0x80 then .inr (UInt8.ofNat c.toNat) else .inl c

/-- What a text is made of: bytes, of its ASCII characters and its percent-encodings, and
    other characters.  The digits of a percent-encoding are skipped. -/
def urlPartsFrom : Nat → List Char → List (Char ⊕ UInt8)
  | _, [] => []
  | skip + 1, _ :: rest => urlPartsFrom skip rest
  | 0, c :: rest =>
    match (if c = '%' then escaped? rest else none) with
    | some byte => .inr byte :: urlPartsFrom 2 rest
    | none => plainPart c :: urlPartsFrom 0 rest

/-- The bytes of each run are decoded. -/
def decodeParts (pending : Option Utf8.Pending) : List (Char ⊕ UInt8) → List Char
  | [] => Utf8.flush pending
  | .inl c :: parts => Utf8.flush pending ++ c :: decodeParts none parts
  | .inr b :: parts =>
    (Utf8.feed pending b).1 ++ decodeParts (Utf8.feed pending b).2 parts

/-- `unquote(text)`. -/
def unquote (text : List Char) : List Char := decodeParts none (urlPartsFrom 0 text)

example : unquote "ch%201%C3%A9é%2.x".toList = "ch 1éé%2.x".toList := by decide

/-! ## Cutting at a slash -/

/-- Bytes between characters are decoded as UTF-8. -/
theorem decodeParts_map_inr (pending : Option Utf8.Pending) (bytes : List UInt8) :
    decodeParts pending (bytes.map .inr) = Utf8.decode pending bytes := by
  induction bytes generalizing pending with
  | nil => rfl
  | cons b bytes ih => rw [List.map_cons, decodeParts, ih, Utf8.decode]

theorem decodeParts_append_ascii {pending : Option Utf8.Pending}
    (hpending : ∀ p ∈ pending, p.Continues) (before : List (Char ⊕ UInt8)) {b : UInt8}
    (hb : b.toNat < 0x80) (rest : List (Char ⊕ UInt8)) :
    decodeParts pending (before ++ .inr b :: rest) =
      decodeParts pending before ++ Char.ofNat b.toNat :: decodeParts none rest := by
  induction before generalizing pending with
  | nil =>
    show (Utf8.feed pending b).1 ++ decodeParts (Utf8.feed pending b).2 rest =
      Utf8.flush pending ++ Char.ofNat b.toNat :: decodeParts none rest
    rw [Utf8.feed_ascii hpending hb, List.append_assoc]
    rfl
  | cons part before ih =>
    cases part with
    | inl c =>
      rw [List.cons_append, decodeParts, decodeParts, ih (by simp), List.append_assoc,
        List.cons_append]
    | inr c =>
      rw [List.cons_append, decodeParts, decodeParts, ih fun p hp => Utf8.continues_feed hp,
        List.append_assoc]

/-- A slash is no hexadecimal digit. -/
theorem escaped?_append_slash (before rest : List Char) :
    escaped? (before ++ '/' :: rest) = escaped? before := by
  have hleft : ∀ b, hexByte? '/' b = none := fun _ => rfl
  have hright : ∀ a, hexByte? a '/' = none := by
    intro a
    unfold hexByte?
    cases hexValue? a <;> rfl
  match before with
  | [] => cases rest <;> simp [escaped?, hleft]
  | [a] => exact hright a
  | a :: b :: before => rfl

theorem two_le_of_escaped? {text : List Char} {byte : UInt8} (h : escaped? text = some byte) :
    2 ≤ text.length := by
  match text with
  | [] => cases h
  | [a] => cases h
  | a :: b :: text => simp

/-- A slash is part of no percent-encoding. -/
theorem urlPartsFrom_append_slash {skip : Nat} {before : List Char} (h : skip ≤ before.length)
    (rest : List Char) :
    urlPartsFrom skip (before ++ '/' :: rest) =
      urlPartsFrom skip before ++ .inr 0x2f :: urlPartsFrom 0 rest := by
  induction before generalizing skip with
  | nil =>
    obtain rfl : skip = 0 := by simpa using h
    rfl
  | cons c before ih =>
    cases skip with
    | succ skip =>
      rw [List.length_cons] at h
      exact ih (by omega)
    | zero =>
      rw [List.cons_append, urlPartsFrom, urlPartsFrom, escaped?_append_slash]
      split
      · next byte hbyte =>
        have htwo : 2 ≤ before.length := by
          split at hbyte
          · exact two_le_of_escaped? hbyte
          · cases hbyte
        rw [ih htwo, List.cons_append]
      · rw [ih (Nat.zero_le _), List.cons_append]

/-- Each segment of a path is decoded by itself. -/
theorem unquote_append_slash (before rest : List Char) :
    unquote (before ++ '/' :: rest) = unquote before ++ '/' :: unquote rest := by
  rw [unquote, urlPartsFrom_append_slash (Nat.zero_le _),
    decodeParts_append_ascii (by simp) _ (by decide)]
  rfl

end PyStr
