import Inherent.ForStd.Numerals
import Inherent.Native.DocxNumbering

/-!
# The numerals of list markers

`_to_letters` writes a count in bijective base 26, and `_to_roman` as a subtractive numeral.  Both
keep different counts apart, in upper case and in lower case, and fall back to decimal digits for
counts that they cannot write.
-/

namespace Inherent

open BijectiveBase (digits)
open SubtractiveNumerals (numeral Descends)

/-! ## Letters -/

/-- The letter of a digit. -/
def letterOf (d : Fin 26) : Char := Char.ofNat ('a'.toNat + d)

theorem letterOf_lt_iff : ∀ d e : Fin 26, letterOf d < letterOf e ↔ d < e := by decide

theorem letterOf_bounds : ∀ d : Fin 26, 'a' ≤ letterOf d ∧ letterOf d ≤ 'z' := by decide

theorem letterOf_injective : Function.Injective letterOf := by
  intro d e h
  by_contra hne
  rcases lt_or_gt_of_ne hne with hlt | hlt
  · exact absurd ((letterOf_lt_iff d e).mpr hlt) (by rw [h]; exact lt_irrefl _)
  · exact absurd ((letterOf_lt_iff e d).mpr hlt) (by rw [h]; exact lt_irrefl _)

theorem exists_letterOf_eq {c : Char} (ha : 'a' ≤ c) (hz : c ≤ 'z') : ∃ d, letterOf d = c := by
  have hlow : 97 ≤ c.toNat := ha
  have hhigh : c.toNat ≤ 122 := hz
  refine ⟨⟨c.toNat - 97, by omega⟩, ?_⟩
  have hcode : 'a'.toNat + (c.toNat - 97) = c.toNat := by
    have : 'a'.toNat = 97 := rfl
    omega
  rw [letterOf, hcode, Char.ofNat_toNat]

theorem exists_map_letterOf_eq {text : List Char} (h : ∀ c ∈ text, 'a' ≤ c ∧ c ≤ 'z') :
    ∃ ds : List (Fin 26), ds.map letterOf = text := by
  induction text with
  | nil => exact ⟨[], rfl⟩
  | cons c text ih =>
    obtain ⟨d, hd⟩ := exists_letterOf_eq (h c List.mem_cons_self).1 (h c List.mem_cons_self).2
    obtain ⟨ds, hds⟩ := ih fun c hc => h c (List.mem_cons_of_mem _ hc)
    exact ⟨d :: ds, by rw [List.map_cons, hd, hds]⟩

/-- Letters are in the order of their digits. -/
theorem shortlex_map_letterOf {ds es : List (Fin 26)} :
    List.Shortlex (· < ·) (ds.map letterOf) (es.map letterOf) ↔ List.Shortlex (· < ·) ds es := by
  have hlex : List.Lex (· < ·) (ds.map letterOf) (es.map letterOf) ↔ List.Lex (· < ·) ds es := by
    induction ds generalizing es with
    | nil => cases es <;> simp
    | cons d ds ih =>
      cases es with
      | nil => simp
      | cons e es =>
        rw [List.map_cons, List.map_cons, List.cons_lex_cons_iff, List.cons_lex_cons_iff, ih,
          letterOf_lt_iff, letterOf_injective.eq_iff]
  rw [List.shortlex_def, List.shortlex_def, List.length_map, List.length_map, hlex]

/-- The loop writes the letters of the digits before those that it has. -/
theorem lettersLoop_eq (n : Nat) (letters : List Char) :
    lettersLoop n letters = (digits 26 n).map letterOf ++ letters := by
  induction n using Nat.strong_induction_on generalizing letters with
  | _ n ih =>
    rw [lettersLoop]
    by_cases h : n = 0
    · rw [if_pos h, h, BijectiveBase.digits_zero]
      rfl
    · have hlt : (n - 1) / 26 < n := by omega
      rw [if_neg h, ih _ hlt, BijectiveBase.digits_of_ne_zero h, List.map_append, List.append_assoc]
      rfl

theorem toList_toLetters {n : ℤ} (hn : 0 < n) :
    (toLetters n).toList = (digits 26 n.toNat).map letterOf := by
  rw [toLetters, if_neg (by omega), String.toList_ofList, lettersLoop_eq, List.append_nil]

/-- Positive counts and nonempty texts of letters are one to one. -/
theorem bijOn_toLetters :
    Set.BijOn toLetters {n : ℤ | 0 < n}
      {s : String | s ≠ "" ∧ ∀ c ∈ s.toList, 'a' ≤ c ∧ c ≤ 'z'} := by
  refine ⟨?_, ?_, ?_⟩
  · -- a positive count has digits, and each is a letter
    intro n hn
    have hne : digits 26 n.toNat ≠ [] := by
      rw [Ne, BijectiveBase.digits_eq_nil_iff]
      have : 0 < n := hn
      omega
    refine ⟨fun hempty => ?_, fun c hc => ?_⟩
    · have htext := toList_toLetters hn
      rw [hempty] at htext
      exact hne (List.map_eq_nil_iff.mp htext.symm)
    · rw [toList_toLetters hn] at hc
      obtain ⟨d, -, rfl⟩ := List.mem_map.mp hc
      exact letterOf_bounds d
  · -- the digits can be read off the letters
    intro m hm n hn h
    have hdigits : digits 26 m.toNat = digits 26 n.toNat := by
      apply letterOf_injective.list_map
      rw [← toList_toLetters hm, ← toList_toLetters hn, h]
    have hvalue := congrArg BijectiveBase.value hdigits
    rw [BijectiveBase.value_digits, BijectiveBase.value_digits] at hvalue
    have : 0 < m := hm
    have : 0 < n := hn
    omega
  · -- letters are digits, and their value is a count
    rintro s ⟨hne, hletters⟩
    obtain ⟨ds, hds⟩ := exists_map_letterOf_eq hletters
    have hpos : 0 < (BijectiveBase.value ds : ℤ) := by
      have hvalue : BijectiveBase.value ds ≠ 0 := by
        intro hzero
        rw [← BijectiveBase.digits_eq_nil_iff (k := 26), BijectiveBase.digits_value] at hzero
        rw [hzero] at hds
        exact hne (String.toList_injective hds.symm)
      omega
    refine ⟨BijectiveBase.value ds, hpos, String.toList_injective ?_⟩
    rw [toList_toLetters hpos, Int.toNat_natCast, BijectiveBase.digits_value, hds]

/-- Letters are in the shortlex order of their counts. -/
theorem shortlex_toLetters_iff {m n : ℤ} (hm : 0 < m) (hn : 0 < n) :
    List.Shortlex (· < ·) (toLetters m).toList (toLetters n).toList ↔ m < n := by
  rw [toList_toLetters hm, toList_toLetters hn, shortlex_map_letterOf,
    BijectiveBase.shortlex_iff_value_lt, BijectiveBase.value_digits, BijectiveBase.value_digits]
  omega

/-! ## Roman numerals -/

/-- The value of a roman letter. -/
def romanValue : Char → Nat
  | 'M' => 1000
  | 'D' => 500
  | 'C' => 100
  | 'L' => 50
  | 'X' => 10
  | 'V' => 5
  | 'I' => 1
  | _ => 0

/-- `_ROMAN_DIGITS` as lists of letters. -/
def romanTable : List (Nat × List Char) := romanDigits.map fun e => (e.1, e.2.toList)

theorem table_romanTable : SubtractiveNumerals.Table romanValue romanTable where
  evaluate := by decide
  ne_nil := by decide
  self := by decide
  descends := by decide
  one := by decide

theorem toList_romanLoop (table : List (Nat × String)) (n : Nat) :
    (romanLoop table n).toList = numeral (table.map fun e => (e.1, e.2.toList)) n := by
  induction table generalizing n with
  | nil => rfl
  | cons e table ih =>
    obtain ⟨value, symbol⟩ := e
    rw [romanLoop, String.toList_append, String.toList_join, ih, List.map_cons, numeral,
      List.flatMap_replicate]

theorem toList_toRoman {n : ℤ} (hn : 0 < n) : (toRoman n).toList = numeral romanTable n.toNat := by
  rw [toRoman, if_neg (by omega), toList_romanLoop, romanTable]

/-- A roman numeral writes its count, however large it is. -/
theorem evaluate_toRoman {n : ℤ} (hn : 0 < n) :
    SubtractiveNumerals.evaluate romanValue (toRoman n).toList = n := by
  rw [toList_toRoman hn, table_romanTable.evaluate_numeral]
  omega

theorem isUpper_of_mem_toRoman {n : ℤ} (hn : 0 < n) {c : Char} (hc : c ∈ (toRoman n).toList) :
    c.isUpper = true := by
  have hall : ∀ e ∈ romanTable, ∀ c ∈ e.2, c.isUpper = true := by
    simp [romanTable, romanDigits]
  rw [toList_toRoman hn] at hc
  obtain ⟨e, he, hce⟩ := SubtractiveNumerals.exists_of_mem_numeral hc
  exact hall e he c hce

theorem isLower_of_mem_toLetters {n : ℤ} (hn : 0 < n) {c : Char} (hc : c ∈ (toLetters n).toList) :
    c.isLower = true := by
  have hall : ∀ d, (letterOf d).isLower = true := by decide
  rw [toList_toLetters hn] at hc
  obtain ⟨d, -, rfl⟩ := List.mem_map.mp hc
  exact hall d

/-! ## Upper case and lower case -/

theorem toList_toUpper (s : String) : s.toUpper.toList = s.toList.map Char.toUpper :=
  String.toList_map

theorem toList_toLower (s : String) : s.toLower.toList = s.toList.map Char.toLower :=
  String.toList_map

/-- Letters in upper case have been their lower case. -/
theorem toLower_toUpper {s : String} (h : ∀ c ∈ s.toList, c.isLower = true) :
    s.toUpper.toLower = s := by
  apply String.toList_injective
  rw [toList_toLower, toList_toUpper, List.map_map]
  refine (List.map_congr_left fun c hc => ?_).trans (List.map_id _)
  rw [Function.comp_apply, Char.toLower_toUpper_eq_toLower, id,
    Char.toLower_eq_of_not_isUpper (Char.not_isUpper_of_isLower (h c hc))]

theorem toUpper_toLower {s : String} (h : ∀ c ∈ s.toList, c.isUpper = true) :
    s.toLower.toUpper = s := by
  apply String.toList_injective
  rw [toList_toUpper, toList_toLower, List.map_map]
  refine (List.map_congr_left fun c hc => ?_).trans (List.map_id _)
  rw [Function.comp_apply, Char.toUpper_toLower_eq_toUpper, id,
    Char.toUpper_eq_of_not_isLower (Char.not_isLower_of_isUpper (h c hc))]

/-- A text without letters is the same in upper case and in lower case. -/
theorem case_of_not_isAlpha {s : String} (h : ∀ c ∈ s.toList, c.isAlpha = false) :
    s.toUpper = s ∧ s.toLower = s := by
  have hcase : ∀ c ∈ s.toList, ¬ c.isUpper = true ∧ ¬ c.isLower = true := by
    intro c hc
    have := h c hc
    rw [Char.isAlpha, Bool.or_eq_false_iff] at this
    simp [this.1, this.2]
  constructor
  · apply String.toList_injective
    rw [toList_toUpper]
    exact (List.map_congr_left fun c hc => Char.toUpper_eq_of_not_isLower (hcase c hc).2).trans
      (List.map_id _)
  · apply String.toList_injective
    rw [toList_toLower]
    exact (List.map_congr_left fun c hc => Char.toLower_eq_of_not_isUpper (hcase c hc).1).trans
      (List.map_id _)

/-- A number in decimal digits has no letter. -/
theorem isAlpha_of_mem_decimal {n : ℤ} {c : Char} (hc : c ∈ (toString n).toList) :
    c.isAlpha = false := by
  have hdigit (m : Nat) (hc : c ∈ m.repr.toList) : c.isAlpha = false := by
    rw [Nat.toList_repr] at hc
    have hrange :=
      Char.isDigit_iff_toNat.mp (Nat.isDigit_of_mem_toDigits (by decide) (by decide) hc)
    have hzero : '0'.toNat = 48 := rfl
    have hnine : '9'.toNat = 57 := rfl
    simp [Char.isAlpha, Char.isUpper, Char.isLower, UInt32.le_iff_toNat_le]
    omega
  rw [Int.toString_eq_repr, Int.repr_eq_if] at hc
  split at hc
  · exact hdigit _ hc
  · rw [String.toList_append] at hc
    -- a negative number has a sign before its digits
    rcases List.mem_append.mp hc with hminus | hc
    · rw [List.mem_singleton.mp hminus]
      decide
    · exact hdigit _ hc

theorem toString_injective : Function.Injective (toString : ℤ → String) := by
  intro m n h
  rw [Int.toString_eq_repr, Int.toString_eq_repr] at h
  exact Int.repr_inj.mp h

/-! ## Counts and their numerals -/

/-- A format that has letters for the positive counts, different ones for different counts, and
    decimal digits for the others. -/
theorem injective_of_letters {render : ℤ → String} (hdecimal : ∀ n ≤ 0, render n = toString n)
    (halpha : ∀ n, 0 < n → ∃ c ∈ (render n).toList, c.isAlpha = true)
    (hinj : ∀ m n, 0 < m → 0 < n → render m = render n → m = n) : Function.Injective render := by
  -- counts on the two sides of zero differ in whether they have a letter
  have hapart : ∀ m n, m ≤ 0 → 0 < n → render m ≠ render n := by
    intro m n hm hn h
    obtain ⟨c, hc, hc'⟩ := halpha n hn
    rw [← h, hdecimal m hm] at hc
    rw [isAlpha_of_mem_decimal hc] at hc'
    cases hc'
  intro m n h
  rcases le_or_gt m 0 with hm | hm
  · rcases le_or_gt n 0 with hn | hn
    · rw [hdecimal m hm, hdecimal n hn] at h
      exact toString_injective h
    · exact absurd h (hapart m n hm hn)
  · rcases le_or_gt n 0 with hn | hn
    · exact absurd h.symm (hapart n m hn hm)
    · exact hinj m n hm hn h

theorem toLetters_of_nonpos {n : ℤ} (hn : n ≤ 0) : toLetters n = toString n := if_pos hn

theorem toRoman_of_nonpos {n : ℤ} (hn : n ≤ 0) : toRoman n = toString n := if_pos hn

theorem exists_isAlpha_toLetters {n : ℤ} (hn : 0 < n) :
    ∃ c ∈ (toLetters n).toList, c.isAlpha = true := by
  obtain ⟨c, hc⟩ := List.exists_mem_of_ne_nil _ fun hnil =>
    (bijOn_toLetters.mapsTo hn).1 (String.toList_injective hnil)
  refine ⟨c, hc, ?_⟩
  rw [Char.isAlpha, isLower_of_mem_toLetters hn hc, Bool.or_true]

theorem exists_isAlpha_toRoman {n : ℤ} (hn : 0 < n) :
    ∃ c ∈ (toRoman n).toList, c.isAlpha = true := by
  -- no letters at all write zero
  have hne : (toRoman n).toList ≠ [] := by
    intro hnil
    have heval := evaluate_toRoman hn
    rw [hnil, SubtractiveNumerals.evaluate] at heval
    omega
  obtain ⟨c, hc⟩ := List.exists_mem_of_ne_nil _ hne
  refine ⟨c, hc, ?_⟩
  rw [Char.isAlpha, isUpper_of_mem_toRoman hn hc, Bool.true_or]

theorem toLetters_inj {m n : ℤ} (hm : 0 < m) (hn : 0 < n) (h : toLetters m = toLetters n) :
    m = n := bijOn_toLetters.injOn hm hn h

theorem toRoman_inj {m n : ℤ} (hm : 0 < m) (hn : 0 < n) (h : toRoman m = toRoman n) : m = n := by
  rw [← evaluate_toRoman hm, h, evaluate_toRoman hn]

theorem case_toString (n : ℤ) :
    (toString n).toUpper = toString n ∧ (toString n).toLower = toString n :=
  case_of_not_isAlpha fun _ hc => isAlpha_of_mem_decimal hc

/-- The upper case of roman numerals is what they are, as `_render_count` takes it. -/
theorem toUpper_toRoman (n : ℤ) : (toRoman n).toUpper = toRoman n := by
  rcases le_or_gt n 0 with hn | hn
  · rw [toRoman_of_nonpos hn]
    exact (case_toString n).1
  · apply String.toList_injective
    rw [toList_toUpper]
    refine (List.map_congr_left fun c hc => ?_).trans (List.map_id _)
    exact Char.toUpper_eq_of_not_isLower
      (Char.not_isLower_of_isUpper (isUpper_of_mem_toRoman hn hc))

/-- The upper case of letters goes back to them. -/
theorem toUpper_toLetters_injective : Function.Injective fun n => (toLetters n).toUpper := by
  apply injective_of_letters
  · intro n hn
    rw [toLetters_of_nonpos hn]
    exact (case_toString n).1
  · intro n hn
    obtain ⟨c, hc, halpha⟩ := exists_isAlpha_toLetters hn
    refine ⟨c.toUpper, ?_, by rw [Char.isAlpha_toUpper_eq_isAlpha, halpha]⟩
    rw [toList_toUpper]
    exact List.mem_map_of_mem hc
  · intro m n hm hn h
    apply toLetters_inj hm hn
    rw [← toLower_toUpper fun c hc => isLower_of_mem_toLetters hm hc, h,
      toLower_toUpper fun c hc => isLower_of_mem_toLetters hn hc]

/-- The lower case of a roman numeral goes back to it. -/
theorem toLower_toRoman_injective : Function.Injective fun n => (toRoman n).toLower := by
  apply injective_of_letters
  · intro n hn
    rw [toRoman_of_nonpos hn]
    exact (case_toString n).2
  · intro n hn
    obtain ⟨c, hc, halpha⟩ := exists_isAlpha_toRoman hn
    refine ⟨c.toLower, ?_, by rw [Char.isAlpha_toLower_eq_isAlpha, halpha]⟩
    rw [toList_toLower]
    exact List.mem_map_of_mem hc
  · intro m n hm hn h
    apply toRoman_inj hm hn
    rw [← toUpper_toLower fun c hc => isUpper_of_mem_toRoman hm hc, h,
      toUpper_toLower fun c hc => isUpper_of_mem_toRoman hn hc]

/-- Different counts are rendered differently, in every format. -/
theorem renderCount_injective (numFmt : String) :
    Function.Injective fun count => renderCount count numFmt := by
  unfold renderCount
  split
  · exact toString_injective
  split
  · -- lowerLetter
    exact injective_of_letters (fun n hn => toLetters_of_nonpos hn)
      (fun n hn => exists_isAlpha_toLetters hn) fun m n hm hn h => toLetters_inj hm hn h
  split
  · exact toUpper_toLetters_injective
  split
  · exact toLower_toRoman_injective
  split
  · -- upperRoman
    exact injective_of_letters (fun n hn => toRoman_of_nonpos hn)
      (fun n hn => exists_isAlpha_toRoman hn) fun m n hm hn h => toRoman_inj hm hn h
  · exact toString_injective

/-- `_to_letters` is a bijection between the positive counts and the nonempty texts of letters, in
    shortlex order; a roman numeral, evaluated, is its count, for every positive one; and whatever
    the format is, different counts are rendered differently. -/
theorem marker_numerals_faithful :
    Set.BijOn toLetters {n : ℤ | 0 < n} {s : String | s ≠ "" ∧ ∀ c ∈ s.toList, 'a' ≤ c ∧ c ≤ 'z'} ∧
      (∀ m n : ℤ, 0 < m → 0 < n →
        (m < n ↔ List.Shortlex (· < ·) (toLetters m).toList (toLetters n).toList)) ∧
      (∀ n : ℤ, 0 < n → SubtractiveNumerals.evaluate romanValue (toRoman n).toList = n) ∧
      ∀ numFmt, Function.Injective fun count => renderCount count numFmt := by
  refine ⟨bijOn_toLetters, fun m n hm hn => ?_, fun n hn => evaluate_toRoman hn,
    renderCount_injective⟩
  exact (shortlex_toLetters_iff hm hn).symm

example : toLetters 703 = "aaa" ∧ toRoman 3999 = "MMMCMXCIX" := by
  constructor
  · simp [toLetters, lettersLoop]
  · decide

end Inherent
