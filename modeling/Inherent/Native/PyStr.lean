import Mathlib

/-!
# Python string operations

The `str` methods that the services use on text, over the characters of a string.
A Python `str` is a sequence of code points, so a text is a `List Char` here and
`len(text)` is its length.
-/

namespace PyStr

/-- `str.isspace` of one character: the characters `str.split()` and `str.strip()`
    treat as whitespace. -/
def isSpace (c : Char) : Bool :=
  let n := c.toNat
  (0x09 ≤ n && n ≤ 0x0d) || (0x1c ≤ n && n ≤ 0x20) || n == 0x85 || n == 0xa0 || n == 0x1680 ||
    (0x2000 ≤ n && n ≤ 0x200a) || n == 0x2028 || n == 0x2029 || n == 0x202f || n == 0x205f ||
    n == 0x3000

/-- `text.lstrip()`. -/
def lstrip (text : List Char) : List Char := text.dropWhile isSpace

/-- `text.rstrip()`. -/
def rstrip (text : List Char) : List Char := (lstrip text.reverse).reverse

/-- `text.strip()`. -/
def strip (text : List Char) : List Char := (lstrip (lstrip text).reverse).reverse

/-- `len(text.split())`: the number of maximal runs of non-blank characters. -/
def wordCount : List Char → Nat
  | [] => 0
  | [c] => if isSpace c then 0 else 1
  | c :: d :: rest => (if !isSpace c && isSpace d then 1 else 0) + wordCount (d :: rest)

/-- `text.rfind(" ", start, end)`: the last index in `[start, end)` that holds a
    space, or `none` for Python's `-1`. -/
def rfindSpace (text : List Char) (start : Nat) : Nat → Option Nat
  | 0 => none
  | stop + 1 =>
    if stop < start then none
    else if text[stop]? = some ' ' then some stop
    else rfindSpace text start stop

/-- `text.rsplit(sep, 1)[-1]` for a separator of one character. -/
def afterLast (sep : Char) (text : List Char) : List Char :=
  (text.reverse.takeWhile fun c => c ≠ sep).reverse

/-- `text.replace(old, new)` for a text `old` of one character. -/
def replaceChar (old : Char) (new : List Char) (text : List Char) : List Char :=
  text.flatMap fun c => if c = old then new else [c]

/-- `text[start:end]`. -/
def slice (text : List Char) (start stop : Nat) : List Char := (text.take stop).drop start

example : wordCount " two words ".toList = 2 := by decide

theorem rfindSpace_bounds {text : List Char} {start stop i : Nat}
    (h : rfindSpace text start stop = some i) : start ≤ i ∧ i < stop := by
  induction stop with
  | zero => simp [rfindSpace] at h
  | succ stop ih =>
    simp only [rfindSpace] at h
    split at h
    · exact absurd h nofun
    · split at h
      · simp only [Option.some.injEq] at h; omega
      · have := ih h; omega

/-! ## Lemmas about slices -/

/-- The text between the parts before and after it is a slice. -/
theorem slice_append (before text after : List Char) :
    slice (before ++ text ++ after) before.length (before.length + text.length) = text := by
  rw [slice, List.append_assoc, List.take_length_add_append, List.take_left, List.drop_left]

/-- A slice of a slice is a slice. -/
theorem slice_slice {text : List Char} {start stop a b : Nat} (h : start + b ≤ stop) :
    slice (slice text start stop) a b = slice text (start + a) (start + b) := by
  unfold slice
  rw [List.take_drop, List.drop_drop, List.take_take, Nat.min_eq_left h]

theorem length_slice {text : List Char} {start stop : Nat} (h : stop ≤ text.length) :
    (slice text start stop).length = stop - start := by
  simp [slice, Nat.min_eq_left h]

/-- A slice and what comes behind it. -/
theorem slice_append_drop {text : List Char} {start stop : Nat} (h : start ≤ stop)
    (hstop : stop ≤ text.length) : slice text start stop ++ text.drop stop = text.drop start := by
  have hle : start ≤ (text.take stop).length := by
    rw [List.length_take]
    omega
  rw [slice, ← List.drop_append_of_le_length hle, List.take_append_drop]

theorem getElem?_slice {text : List Char} {start stop i : Nat} (h : start + i < stop) :
    (slice text start stop)[i]? = text[start + i]? := by
  rw [slice, List.getElem?_drop, List.getElem?_take, if_pos h]

/-! ## Lemmas about `strip` -/

/-- `lstrip` takes off a blank prefix. -/
theorem exists_append_lstrip (text : List Char) :
    ∃ before, text = before ++ lstrip text ∧ ∀ c ∈ before, isSpace c = true := by
  refine ⟨text.takeWhile isSpace, ?_, ?_⟩
  · exact List.takeWhile_append_dropWhile.symm
  · exact fun c hc => List.mem_takeWhile_imp hc

/-- `strip` takes off a blank prefix and a blank suffix. -/
theorem exists_append_strip (text : List Char) :
    ∃ before after, text = before ++ strip text ++ after ∧
      (∀ c ∈ before, isSpace c = true) ∧ ∀ c ∈ after, isSpace c = true := by
  obtain ⟨before, hbefore, hblank⟩ := exists_append_lstrip text
  obtain ⟨after, hafter, hblank'⟩ := exists_append_lstrip (lstrip text).reverse
  have hl : lstrip text = strip text ++ after.reverse := by
    rw [← List.reverse_reverse (lstrip text), hafter, List.reverse_append]
    rfl
  refine ⟨before, after.reverse, ?_, hblank, ?_⟩
  · rw [List.append_assoc, ← hl]
    exact hbefore
  · intro c hc
    exact hblank' c (List.mem_reverse.mp hc)

/-- What `strip` leaves of a text is a slice of it that holds every character that is no
    whitespace. -/
theorem strip_eq_slice (text : List Char) :
    ∃ a b, a ≤ b ∧ b ≤ text.length ∧ strip text = slice text a b ∧
      ∀ (p : Nat) (c : Char), text[p]? = some c → isSpace c = false → a ≤ p ∧ p < b := by
  obtain ⟨before, after, htext, hbefore, hafter⟩ := exists_append_strip text
  have hlen : text.length = before.length + (strip text).length + after.length := by
    rw [← List.length_append, ← List.length_append, ← htext]
  refine ⟨before.length, before.length + (strip text).length, by omega, by omega, ?_, ?_⟩
  · have h := slice_append before (strip text) after
    rw [← htext] at h
    exact h.symm
  · intro p c hp hc
    rw [htext] at hp
    constructor
    · -- a character before the slice is a blank of the prefix
      by_contra hlt
      rw [List.append_assoc, List.getElem?_append_left (by omega)] at hp
      have := hbefore c (List.mem_of_getElem? hp)
      simp [this] at hc
    · by_contra hge
      rw [List.getElem?_append_right (by simp only [List.length_append]; omega)] at hp
      have := hafter c (List.mem_of_getElem? hp)
      simp [this] at hc

end PyStr
