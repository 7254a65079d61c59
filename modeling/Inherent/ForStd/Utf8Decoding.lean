import Mathlib

/-!
# UTF-8 decoding with replacement

A decoder that never fails: a sequence that is not UTF-8 is replaced by U+FFFD, one for each
longest start of a valid sequence.  An ASCII byte is never part of another character, so that
decoding can be cut at it (`feed_ascii`).
-/

namespace Utf8

/-- What a decoder has read of a character: how many bytes are missing, the bits so far, and
    the range of the next byte. -/
structure Pending where
  missing : Nat
  bits : Nat
  low : Nat := 0x80
  high : Nat := 0xbf
  deriving DecidableEq, Repr

/-- U+FFFD. -/
def replacement : Char := '\ufffd'

/-- The first byte of a character: what is decoded at once, and what is pending. -/
def start (b : UInt8) : List Char × Option Pending :=
  let n := b.toNat
  if n < 0x80 then ([Char.ofNat n], none)
  else if n < 0xc2 then ([replacement], none)
  else if n < 0xe0 then ([], some { missing := 1, bits := n - 0xc0 })
  else if n = 0xe0 then ([], some { missing := 2, bits := 0, low := 0xa0 })
  else if n = 0xed then ([], some { missing := 2, bits := 0xd, high := 0x9f })
  else if n < 0xf0 then ([], some { missing := 2, bits := n - 0xe0 })
  else if n = 0xf0 then ([], some { missing := 3, bits := 0, low := 0x90 })
  else if n = 0xf4 then ([], some { missing := 3, bits := 4, high := 0x8f })
  else if n < 0xf4 then ([], some { missing := 3, bits := n - 0xf0 })
  else ([replacement], none)

/-- The next byte. -/
def feed (pending : Option Pending) (b : UInt8) : List Char × Option Pending :=
  match pending with
  | none => start b
  | some p =>
    if p.low ≤ b.toNat ∧ b.toNat ≤ p.high then
      let bits := p.bits * 64 + (b.toNat - 0x80)
      if p.missing = 1 then ([Char.ofNat bits], none)
      else ([], some { missing := p.missing - 1, bits })
    else
      -- the byte ends a broken sequence and begins the next one
      let next := start b
      (replacement :: next.1, next.2)

/-- What is left at the end. -/
def flush (pending : Option Pending) : List Char :=
  match pending with
  | none => []
  | some _ => [replacement]

/-- `bytes.decode("utf-8", "replace")`, when `pending` has been read before. -/
def decode (pending : Option Pending) : List UInt8 → List Char
  | [] => flush pending
  | b :: rest => (feed pending b).1 ++ decode (feed pending b).2 rest

example : decode none [0x61, 0xc3, 0xa9, 0xf0, 0x80, 0xe2, 0x82, 0x62] =
    ['a', 'é', replacement, replacement, replacement, 'b'] := by decide

/-- The range of a byte that continues a character. -/
def Pending.Continues (p : Pending) : Prop := 0x80 ≤ p.low

theorem continues_start {b : UInt8} {p : Pending} (h : (start b).2 = some p) : p.Continues := by
  simp only [start] at h
  split_ifs at h <;> simp only [Option.some.injEq] at h <;> subst h <;>
    simp [Pending.Continues]

theorem continues_feed {pending : Option Pending} {b : UInt8} {p : Pending}
    (h : (feed pending b).2 = some p) : p.Continues := by
  cases pending with
  | none => exact continues_start h
  | some q =>
    simp only [feed] at h
    split_ifs at h with hrange hone
    · simp only [Option.some.injEq] at h
      subst h
      exact Nat.le_refl _
    · exact continues_start h

/-- An ASCII byte ends what is pending and is decoded at once. -/
theorem feed_ascii {pending : Option Pending} (hpending : ∀ p ∈ pending, p.Continues) {b : UInt8}
    (hb : b.toNat < 0x80) : feed pending b = (flush pending ++ [Char.ofNat b.toNat], none) := by
  have hstart : start b = ([Char.ofNat b.toNat], none) := if_pos hb
  cases pending with
  | none => exact hstart
  | some p =>
    have hlow : 0x80 ≤ p.low := hpending p rfl
    have hout : ¬ (p.low ≤ b.toNat ∧ b.toNat ≤ p.high) := by omega
    simp only [feed, if_neg hout, hstart]
    rfl

end Utf8
