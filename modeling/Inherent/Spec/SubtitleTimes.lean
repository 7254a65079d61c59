import Inherent.Native.SubtitleText

/-!
# The times of a cue

A line with times is found if its timestamps have the hours in two digits, the first one at its
end (`matchTimestamps?_eq_some`, `searchTimestamps?_arrow`), and a marker shows the minutes and
seconds of a timestamp (`timestampToMarker_print`).
-/

namespace Inherent

/-! ## Timestamps -/

inductive SubtitleFormat where
  | srt
  | webVtt
  deriving DecidableEq

/-- A time; where the hours are left out, they have no digits. -/
structure CueTime where
  hours : List (Fin 10)
  minutes : Fin 60
  seconds : Fin 60
  millis : Fin 1000
  deriving DecidableEq

def CueTime.hourCount (t : CueTime) : Nat :=
  t.hours.foldl (fun n (d : Fin 10) => n * 10 + d.val) 0

/-- The time in milliseconds. -/
def CueTime.total (t : CueTime) : Nat :=
  ((t.hourCount * 60 + t.minutes) * 60 + t.seconds) * 1000 + t.millis

def twoDigits (n : Nat) : List Char := [Nat.digitChar (n / 10), Nat.digitChar (n % 10)]

/-- What stands behind the hours of a timestamp. -/
def CueTime.printMinutes (point : Char) (t : CueTime) : List Char :=
  twoDigits t.minutes ++ ':' :: twoDigits t.seconds ++
    point :: Nat.digitChar (t.millis / 100) :: twoDigits (t.millis % 100)

def CueTime.printHours (t : CueTime) : List Char :=
  t.hours.map fun d : Fin 10 => Nat.digitChar d.val

/-- The timestamp of a time. -/
def CueTime.print (point : Char) (t : CueTime) : List Char :=
  if t.hours = [] then t.printMinutes point
  else t.printHours ++ ':' :: t.printMinutes point

/-- The decimal point of a format. -/
def SubtitleFormat.point : SubtitleFormat → Char
  | srt => ','
  | webVtt => '.'

/-- The times of a format. -/
def SubtitleFormat.HasTime : SubtitleFormat → CueTime → Prop
  | srt, t => t.hours.length = 2
  | webVtt, t => t.hours = [] ∨ 2 ≤ t.hours.length

/-- The time that the last two digits of the hours leave. -/
def CueTime.lastTwo (t : CueTime) : CueTime :=
  { t with hours := t.hours.drop (t.hours.length - 2) }

def NoArrow (line : List Char) : Prop := ¬ "-->".toList <:+: line

/-! ## Digits -/

theorem isDecimal_digitChar {n : Nat} (h : n < 10) : PyStr.isDecimal (Nat.digitChar n) = true := by
  have hall : ∀ d : Fin 10, PyStr.isDecimal (Nat.digitChar d) = true := by decide +kernel
  exact hall ⟨n, h⟩

theorem digitChar_ne {n : Nat} (h : n < 10) :
    Nat.digitChar n ≠ ':' ∧ Nat.digitChar n ≠ '.' ∧ Nat.digitChar n ≠ ',' ∧
      Nat.digitChar n ≠ '-' ∧ PyStr.isSpace (Nat.digitChar n) = false := by
  have hall : ∀ d : Fin 10, Nat.digitChar d ≠ ':' ∧ Nat.digitChar d ≠ '.' ∧
      Nat.digitChar d ≠ ',' ∧ Nat.digitChar d ≠ '-' ∧
      PyStr.isSpace (Nat.digitChar d) = false := by decide
  exact hall ⟨n, h⟩

theorem digitChar_inj {m n : Nat} (hm : m < 10) (hn : n < 10)
    (h : Nat.digitChar m = Nat.digitChar n) : m = n := by
  have hall : ∀ a b : Fin 10, Nat.digitChar a = Nat.digitChar b → a = b := by decide
  exact congrArg Fin.val (hall ⟨m, hm⟩ ⟨n, hn⟩ h)

/-- `int` reads two digits. -/
theorem int?_twoDigits {n : Nat} (h : n < 100) : PyStr.int? (twoDigits n) = some (n : Int) := by
  have hall : ∀ m : Fin 100, PyStr.int? (twoDigits m) = some (m : Int) := by decide +kernel
  exact hall ⟨n, h⟩

/-- Whitespace is no digit. -/
theorem isSpace_of_isDecimal {c : Char} (h : PyStr.isDecimal c = true) :
    PyStr.isSpace c = false := by
  have hzeros : ∀ z ∈ PyStr.decimalZeros, z = 0x30 ∨ z = 0x660 ∨ 0x6f0 ≤ z ∧
      (z + 10 ≤ 0x1680 ∨ 0x1681 ≤ z) ∧ (z + 10 ≤ 0x2000 ∨ 0x3001 ≤ z) := by decide
  rw [PyStr.isDecimal, PyStr.digitValue?, Option.isSome_map] at h
  obtain ⟨z, hz⟩ := Option.isSome_iff_exists.mp h
  have hmem := hzeros z (List.mem_of_find?_eq_some hz)
  have hrange := List.find?_some hz
  simp only [Bool.and_eq_true, decide_eq_true_eq] at hrange
  by_contra hspace
  simp only [Bool.not_eq_false, PyStr.isSpace, Bool.or_eq_true, Bool.and_eq_true,
    decide_eq_true_eq, beq_iff_eq] at hspace
  omega

/-! ## What a timestamp is made of -/

/-- The characters of a timestamp. -/
theorem mem_print {f : SubtitleFormat} {t : CueTime} {c : Char} (h : c ∈ t.print f.point) :
    c = ':' ∨ c = f.point ∨ ∃ n, n < 10 ∧ c = Nat.digitChar n := by
  have hminutes : c ∈ t.printMinutes f.point →
      c = ':' ∨ c = f.point ∨ ∃ n, n < 10 ∧ c = Nat.digitChar n := by
    have := t.minutes.isLt
    have := t.seconds.isLt
    have := t.millis.isLt
    simp only [CueTime.printMinutes, twoDigits, List.cons_append, List.nil_append, List.mem_cons,
      List.not_mem_nil, or_false]
    rintro (rfl | rfl | rfl | rfl | rfl | rfl | rfl | rfl | rfl)
    all_goals first
      | exact .inl rfl
      | exact .inr (.inl rfl)
      | exact .inr (.inr ⟨_, by omega, rfl⟩)
  -- without hours there is only what stands behind them
  unfold CueTime.print at h
  split at h
  · exact hminutes h
  · rcases List.mem_append.mp h with h | h
    · obtain ⟨d, -, rfl⟩ := List.mem_map.mp h
      exact .inr (.inr ⟨d, d.isLt, rfl⟩)
    · rcases List.mem_cons.mp h with rfl | h
      · exact .inl rfl
      · exact hminutes h

theorem notSpace_of_mem_print {f : SubtitleFormat} {t : CueTime} {c : Char}
    (h : c ∈ t.print f.point) : PyStr.isSpace c = false ∧ c ≠ '-' := by
  rcases mem_print h with rfl | rfl | ⟨n, hn, rfl⟩
  · decide
  · cases f <;> decide
  · exact ⟨(digitChar_ne hn).2.2.2.2, (digitChar_ne hn).2.2.2.1⟩

theorem length_printMinutes (point : Char) (t : CueTime) : (t.printMinutes point).length = 9 := rfl

theorem print_of_hours {point : Char} {t : CueTime} (h : t.hours ≠ []) :
    t.print point = t.printHours ++ ':' :: t.printMinutes point := if_neg h

theorem length_print (point : Char) (t : CueTime) :
    (t.print point).length = if t.hours = [] then 9 else t.hours.length + 10 := by
  unfold CueTime.print
  split
  · exact length_printMinutes point t
  · simp [CueTime.printHours, length_printMinutes]

theorem printMinutes_inj {point : Char} {t u : CueTime}
    (h : t.printMinutes point = u.printMinutes point) :
    t.minutes = u.minutes ∧ t.seconds = u.seconds ∧ t.millis = u.millis := by
  have := t.minutes.isLt
  have := u.minutes.isLt
  have := t.seconds.isLt
  have := u.seconds.isLt
  have := t.millis.isLt
  have := u.millis.isLt
  simp only [CueTime.printMinutes, twoDigits, List.cons_append, List.nil_append, List.cons.injEq,
    and_true, true_and] at h
  -- digit by digit
  obtain ⟨hm, hm', hs, hs', hx, hx', hx''⟩ := h
  have hm := digitChar_inj (by omega) (by omega) hm
  have hm' := digitChar_inj (by omega) (by omega) hm'
  have hs := digitChar_inj (by omega) (by omega) hs
  have hs' := digitChar_inj (by omega) (by omega) hs'
  have hx := digitChar_inj (by omega) (by omega) hx
  have hx' := digitChar_inj (by omega) (by omega) hx'
  have hx'' := digitChar_inj (by omega) (by omega) hx''
  exact ⟨by omega, by omega, by omega⟩

theorem print_inj {point : Char} {t u : CueTime} (h : t.print point = u.print point) : t = u := by
  have hlen := congrArg List.length h
  rw [length_print, length_print] at hlen
  -- the lengths tell whether both have hours, and how many
  have hhours : (t.hours = [] ∧ u.hours = []) ∨
      (t.hours ≠ [] ∧ u.hours ≠ [] ∧ t.hours.length = u.hours.length) := by
    have ht := List.length_pos_iff (l := t.hours)
    have hu := List.length_pos_iff (l := u.hours)
    split at hlen <;> split at hlen <;> simp_all
  cases t
  cases u
  rcases hhours with ⟨ht, hu⟩ | ⟨ht, hu, hcount⟩
  · simp only at ht hu
    subst ht hu
    obtain ⟨rfl, rfl, rfl⟩ := printMinutes_inj h
    rfl
  · rw [print_of_hours ht, print_of_hours hu] at h
    obtain ⟨hhours, hrest⟩ := List.append_inj h (by simpa [CueTime.printHours] using hcount)
    rw [CueTime.printHours, CueTime.printHours] at hhours
    have hsame := List.map_injective_iff.mpr (fun a b hab =>
      Fin.ext (digitChar_inj a.isLt b.isLt hab)) hhours
    simp only at hsame
    subst hsame
    obtain ⟨rfl, rfl, rfl⟩ := printMinutes_inj (List.cons.inj hrest).2
    rfl

/-! ## Matching -/

/-- Only the timestamps with two digits of hours have the characters of the pattern. -/
theorem fits_print {f : SubtitleFormat} {t : CueTime} (ht : f.HasTime t) (rest : List Char) :
    PyStr.fits timestampClasses (t.print f.point ++ rest) = decide (t.hours.length = 2) := by
  have hpoint : (f.point == ':') = false ∧ (f.point == '.' || f.point == ',') = true := by
    cases f <;> decide
  have hdec : ∀ n, n < 10 → PyStr.isDecimal (Nat.digitChar n) = true :=
    fun n => isDecimal_digitChar
  have := t.minutes.isLt
  have := t.seconds.isLt
  have := t.millis.isLt
  obtain ⟨hours, minutes, seconds, millis⟩ := t
  -- the pattern wants two digits and a colon first
  match hours with
  | [] =>
    simp [CueTime.print, CueTime.printMinutes, twoDigits, timestampClasses, PyStr.fits, hpoint.1]
  | [a] =>
    cases f <;> simp [SubtitleFormat.HasTime] at ht
  | [a, b] =>
    have hh := And.intro (hdec a a.isLt) (hdec b b.isLt)
    have hm := And.intro (hdec (minutes / 10) (by omega)) (hdec (minutes % 10) (by omega))
    have hs := And.intro (hdec (seconds / 10) (by omega)) (hdec (seconds % 10) (by omega))
    have hx := And.intro (hdec (millis / 100) (by omega)) (And.intro
      (hdec (millis % 100 / 10) (by omega)) (hdec (millis % 10) (by omega)))
    simp [CueTime.print, CueTime.printHours, CueTime.printMinutes, twoDigits, timestampClasses,
      PyStr.fits, hpoint.2, hh, hm, hs, hx]
  | a :: b :: c :: more =>
    have hc : (Nat.digitChar c == ':') = false := by simp [(digitChar_ne c.isLt).1]
    simp [CueTime.print, CueTime.printHours, timestampClasses, PyStr.fits, hc]

theorem length_of_fits {classes : List (Char → Bool)} {text : List Char}
    (h : PyStr.fits classes text = true) : classes.length ≤ text.length := by
  induction classes generalizing text with
  | nil => simp
  | cons p classes ih =>
    cases text with
    | nil => cases h
    | cons c text =>
      simp only [PyStr.fits, Bool.and_eq_true] at h
      have := ih h.2
      simp only [List.length_cons]
      omega

/-- The last character of what fits. -/
theorem getLast_of_fits {classes : List (Char → Bool)} {p : Char → Bool} {text : List Char}
    (h : PyStr.fits (classes ++ [p]) text = true) :
    ∃ c, (text.take (classes.length + 1)).getLast? = some c ∧ p c = true := by
  induction classes generalizing text with
  | nil =>
    cases text with
    | nil => cases h
    | cons c text => exact ⟨c, by simp, by simpa [PyStr.fits] using h⟩
  | cons q classes ih =>
    cases text with
    | nil => cases h
    | cons d text =>
      simp only [List.cons_append, PyStr.fits, Bool.and_eq_true] at h
      obtain ⟨c, hc, hp⟩ := ih h.2
      refine ⟨c, ?_, hp⟩
      rw [List.length_cons, List.take_succ_cons, List.getLast?_cons, hc]
      rfl

/-- What a match of the pattern says about the text. -/
theorem matchTimestamps?_eq_some {text first : List Char} (h : matchTimestamps? text = some first) :
    ∃ blank after, text = first ++ blank ++ "-->".toList ++ after ∧
      (∀ c ∈ blank, PyStr.isSpace c = true) ∧ first.length = 12 ∧
      (∃ c, first.getLast? = some c ∧ PyStr.isSpace c = false) ∧
      PyStr.fits timestampClasses (after.dropWhile PyStr.isSpace) = true := by
  simp only [matchTimestamps?] at h
  split at h
  · next hmatch =>
    cases h
    simp only [Bool.and_eq_true] at hmatch
    obtain ⟨⟨hfirst, harrow⟩, hsecond⟩ := hmatch
    obtain ⟨after, hafter⟩ := List.isPrefixOf_iff_prefix.mp harrow
    have hdrop : ((text.drop 12).dropWhile PyStr.isSpace).drop 3 = after := by
      rw [← hafter]
      rfl
    rw [hdrop] at hsecond
    have hlen : 12 ≤ text.length := length_of_fits hfirst
    -- twelve characters, the blanks behind them, and the arrow
    refine ⟨(text.drop 12).takeWhile PyStr.isSpace, after, ?_, fun c => List.mem_takeWhile_imp,
      by simpa using hlen, ?_, hsecond⟩
    · rw [List.append_assoc, hafter, List.append_assoc, List.takeWhile_append_dropWhile,
        List.take_append_drop]
    · obtain ⟨c, hc, hdecimal⟩ :=
        @getLast_of_fits timestampClasses.dropLast PyStr.isDecimal text hfirst
      exact ⟨c, hc, isSpace_of_isDecimal hdecimal⟩
  · cases h

/-! ## Searching a line -/

theorem searchTimestamps?_eq_some {line first : List Char}
    (h : searchTimestamps? line = some first) :
    ∃ front text, line = front ++ text ∧ matchTimestamps? text = some first := by
  induction line with
  | nil => cases h
  | cons c rest ih =>
    rw [searchTimestamps?] at h
    cases hmatch : matchTimestamps? (c :: rest) with
    | some found =>
      rw [hmatch] at h
      cases h
      exact ⟨[], c :: rest, rfl, hmatch⟩
    | none =>
      rw [hmatch] at h
      obtain ⟨front, text, hcut, hfound⟩ := ih h
      exact ⟨c :: front, text, by rw [hcut]; rfl, hfound⟩

/-- A match is found, at its place or before it. -/
theorem searchTimestamps?_isSome (front : List Char) {text first : List Char}
    (h : matchTimestamps? text = some first) :
    (searchTimestamps? (front ++ text)).isSome = true := by
  induction front with
  | nil =>
    cases text with
    | nil => cases h
    | cons c rest => simp [searchTimestamps?, h]
  | cons c front ih =>
    rw [List.cons_append, searchTimestamps?]
    cases matchTimestamps? (c :: (front ++ text)) with
    | some found => rfl
    | none => exact ih

/-- A line without an arrow has no timestamps. -/
theorem searchTimestamps?_of_noArrow {line : List Char} (h : NoArrow line) :
    searchTimestamps? line = none := by
  cases hsearch : searchTimestamps? line with
  | none => rfl
  | some first =>
    obtain ⟨front, text, rfl, hmatch⟩ := searchTimestamps?_eq_some hsearch
    obtain ⟨blank, after, rfl, -⟩ := matchTimestamps?_eq_some hmatch
    exact absurd ⟨front ++ first ++ blank, after, by simp⟩ h

/-- Text without a dash makes no arrow. -/
theorem NoArrow.append {front text : List Char} (hfront : '-' ∉ front) (h : NoArrow text) :
    NoArrow (front ++ text) := by
  rintro ⟨before, after, heq⟩
  rw [List.append_assoc, List.append_eq_append_iff] at heq
  -- an arrow would begin in front, at a dash, or in the text
  rcases heq with ⟨gap, hgap, hrest⟩ | ⟨gap, hgap, hrest⟩
  · cases gap with
    | nil => exact h ⟨[], after, by simpa using hrest⟩
    | cons c gap =>
      have hc : '-' = c := (List.cons.inj hrest).1
      subst hc
      exact hfront (by simp [hgap])
  · exact h ⟨gap, after, by rw [hrest, List.append_assoc]⟩

/-- The only arrow of a text. -/
theorem arrow_unique {before after front back : List Char}
    (h : before ++ "-->".toList ++ after = front ++ "-->".toList ++ back) (hfront : '-' ∉ front)
    (hback : NoArrow back) : before = front ∧ after = back := by
  rw [List.append_assoc, List.append_assoc, List.append_eq_append_iff] at h
  rcases h with ⟨gap, hgap, hrest⟩ | ⟨gap, hgap, hrest⟩
  · cases gap with
    | nil => exact ⟨by simpa using hgap.symm, by simpa using hrest⟩
    | cons c gap =>
      have hc : '-' = c := (List.cons.inj hrest).1
      subst hc
      exact absurd (by simp [hgap]) hfront
  · -- another arrow would begin inside of the first one or behind it
    match gap with
    | [] => exact ⟨by simpa using hgap, by simpa using hrest.symm⟩
    | [c] => simp at hrest
    | [c, d] => simp at hrest
    | c :: d :: e :: gap =>
      simp only [String.reduceToList, List.cons_append, List.nil_append, List.cons.injEq] at hrest
      exact absurd ⟨gap, after, by simp [hrest.2.2.2]⟩ hback

/-- Whitespace behind two texts that do not end with it. -/
theorem append_blank_inj {a b blank blank' : List Char} (h : a ++ blank = b ++ blank')
    (hblank : ∀ c ∈ blank, PyStr.isSpace c = true) (hblank' : ∀ c ∈ blank', PyStr.isSpace c = true)
    (ha : ∀ c ∈ a.getLast?, PyStr.isSpace c = false)
    (hb : ∀ c ∈ b.getLast?, PyStr.isSpace c = false) : a = b := by
  rw [List.append_eq_append_iff] at h
  rcases h with ⟨gap, hgap, hrest⟩ | ⟨gap, hgap, hrest⟩
  · rcases List.eq_nil_or_concat gap with rfl | ⟨gap, c, rfl⟩
    · simpa using hgap.symm
    · have hspace := hblank c (by simp [hrest])
      rw [hb c (by simp [hgap])] at hspace
      cases hspace
  · rcases List.eq_nil_or_concat gap with rfl | ⟨gap, c, rfl⟩
    · simpa using hgap
    · have hspace := hblank' c (by simp [hrest])
      rw [ha c (by simp [hgap])] at hspace
      cases hspace

/-! ## Lines with times -/

/-- Settings behind the times of a cue: words behind blanks and tabs. -/
structure CueSettings (settings : List Char) : Prop where
  chars : ∀ c ∈ settings, c = ' ' ∨ c = '\t' ∨ PyStr.isSpace c = false
  head : ∀ c ∈ settings.head?, c = ' ' ∨ c = '\t'
  noArrow : NoArrow settings

/-- The line with the times of a cue. -/
def timingLine (f : SubtitleFormat) (start stop : CueTime) (before after settings : List Char) :
    List Char :=
  start.print f.point ++ before ++ "-->".toList ++ (after ++ stop.print f.point ++ settings)

section

variable {f : SubtitleFormat} {start stop : CueTime} {before after settings : List Char}

theorem isSpace_of_blank {c : Char} (h : c = ' ' ∨ c = '\t') :
    PyStr.isSpace c = true ∧ c ≠ '-' := by
  rcases h with rfl | rfl <;> decide

theorem dropWhile_stop (hafter : ∀ c ∈ after, c = ' ' ∨ c = '\t') :
    (after ++ stop.print f.point ++ settings).dropWhile PyStr.isSpace =
      stop.print f.point ++ settings := by
  rw [List.append_assoc,
    List.dropWhile_append_of_pos fun c hc => (isSpace_of_blank (hafter c hc)).1]
  have hne : stop.print f.point ≠ [] := by
    intro hnil
    have := length_print f.point stop
    rw [hnil] at this
    split at this <;> simp at this
  obtain ⟨c, rest, hcut⟩ := List.exists_cons_of_ne_nil hne
  have hc := (notSpace_of_mem_print (f := f) (t := stop) (c := c) (by rw [hcut]; simp)).1
  rw [hcut, List.cons_append, List.dropWhile_cons, hc]
  rfl

theorem getLast_print {c : Char} (h : c ∈ (start.print f.point).getLast?) :
    PyStr.isSpace c = false :=
  (notSpace_of_mem_print (List.mem_of_getLast? h)).1

theorem two_le_hours (h : f.HasTime start) (hne : start.hours ≠ []) : 2 ≤ start.hours.length := by
  cases f with
  | srt => exact h.ge
  | webVtt => exact h.resolve_left hne

/-- The last two digits of the hours begin the end of the timestamp. -/
theorem print_eq_append_lastTwo (h : 2 ≤ start.hours.length) :
    start.print f.point = (start.hours.take (start.hours.length - 2)).map
        (fun d : Fin 10 => Nat.digitChar d.val) ++ start.lastTwo.print f.point := by
  have hne : start.hours ≠ [] := by
    rintro hnil
    simp [hnil] at h
  have hlast : start.lastTwo.hours ≠ [] := by
    intro hnil
    have := congrArg List.length hnil
    simp only [CueTime.lastTwo, List.length_drop, List.length_nil] at this
    omega
  -- the hours are the digits before the last two, and those two
  have hhours : start.printHours = (start.hours.take (start.hours.length - 2)).map
      (fun d : Fin 10 => Nat.digitChar d.val) ++ start.lastTwo.printHours := by
    rw [CueTime.printHours, CueTime.printHours, CueTime.lastTwo, ← List.map_append,
      List.take_append_drop]
  rw [print_of_hours hne, print_of_hours hlast, hhours, List.append_assoc]
  rfl

theorem length_lastTwo (h : 2 ≤ start.hours.length) : start.lastTwo.hours.length = 2 := by
  simp only [CueTime.lastTwo, List.length_drop]
  omega

theorem length_print_lastTwo (h : 2 ≤ start.hours.length) :
    (start.lastTwo.print f.point).length = 12 := by
  have hlen := length_lastTwo h
  rw [length_print, if_neg, hlen]
  rintro hnil
  simp [hnil] at hlen

/-- The pattern matches behind the other digits of the hours. -/
theorem matchTimestamps?_lastTwo (hstart : 2 ≤ start.hours.length) (hstop : f.HasTime stop)
    (htwo : stop.hours.length = 2) (hbefore : ∀ c ∈ before, c = ' ' ∨ c = '\t')
    (hafter : ∀ c ∈ after, c = ' ' ∨ c = '\t') :
    matchTimestamps? (timingLine f start.lastTwo stop before after settings) =
      some (start.lastTwo.print f.point) := by
  have hlen := length_print_lastTwo (f := f) hstart
  have htime : f.HasTime start.lastTwo := by
    cases f with
    | srt => exact length_lastTwo hstart
    | webVtt => exact .inr (length_lastTwo hstart).ge
  -- the two timestamps and the arrow, one after the other
  have hfirst : PyStr.fits timestampClasses
      (timingLine f start.lastTwo stop before after settings) = true := by
    rw [timingLine, List.append_assoc, List.append_assoc, fits_print htime]
    simpa using length_lastTwo hstart
  have harrow : ((timingLine f start.lastTwo stop before after settings).drop 12).dropWhile
      PyStr.isSpace = "-->".toList ++ (after ++ stop.print f.point ++ settings) := by
    rw [timingLine, List.append_assoc, List.append_assoc, List.drop_left' hlen,
      List.dropWhile_append_of_pos fun c hc => (isSpace_of_blank (hbefore c hc)).1]
    rfl
  have hsecond : PyStr.fits timestampClasses
      ((after ++ stop.print f.point ++ settings).dropWhile PyStr.isSpace) = true := by
    rw [dropWhile_stop hafter, fits_print hstop]
    simpa using htwo
  have htake : (timingLine f start.lastTwo stop before after settings).take 12 =
      start.lastTwo.print f.point := by
    rw [timingLine, List.append_assoc, List.append_assoc, List.take_left' hlen]
  simp only [matchTimestamps?, hfirst, harrow]
  have hdrop : ("-->".toList ++ (after ++ stop.print f.point ++ settings)).drop 3 =
      after ++ stop.print f.point ++ settings := rfl
  rw [hdrop, hsecond, htake]
  rfl

/-- Whatever is found in a line with times is the end of the start, before the one arrow. -/
theorem of_searchTimestamps?_timingLine (hstart : f.HasTime start) (hstop : f.HasTime stop)
    (hbefore : ∀ c ∈ before, c = ' ' ∨ c = '\t') (hafter : ∀ c ∈ after, c = ' ' ∨ c = '\t')
    (hsettings : NoArrow settings) {first : List Char}
    (hsearch : searchTimestamps? (timingLine f start stop before after settings) = some first) :
    (start.hours ≠ [] ∧ stop.hours.length = 2) ∧ first = start.lastTwo.print f.point := by
  have hdash : ∀ t : CueTime, '-' ∉ t.print f.point := fun t h => (notSpace_of_mem_print h).2 rfl
  obtain ⟨front, text, hcut, hmatch⟩ := searchTimestamps?_eq_some hsearch
  obtain ⟨blank, rest, rfl, hblank, hlen, hlast, hfits⟩ := matchTimestamps?_eq_some hmatch
  have hback : NoArrow (after ++ stop.print f.point ++ settings) := by
    apply NoArrow.append _ hsettings
    rw [List.mem_append, not_or]
    exact ⟨fun h => (isSpace_of_blank (hafter _ h)).2 rfl, hdash stop⟩
  have hfront : '-' ∉ start.print f.point ++ before := by
    rw [List.mem_append, not_or]
    exact ⟨hdash start, fun h => (isSpace_of_blank (hbefore _ h)).2 rfl⟩
  -- the line has one arrow, and what is found ends before it
  obtain ⟨hstarts, hstops⟩ : front ++ first ++ blank = start.print f.point ++ before ∧
      rest = after ++ stop.print f.point ++ settings :=
    arrow_unique (by simpa [timingLine] using hcut.symm) hfront hback
  rw [hstops, dropWhile_stop hafter, fits_print hstop, decide_eq_true_eq] at hfits
  have hprint : front ++ first = start.print f.point := by
    refine append_blank_inj hstarts hblank
      (fun c hc => (isSpace_of_blank (hbefore c hc)).1) ?_ fun c hc => getLast_print hc
    obtain ⟨d, hd, hspace⟩ := hlast
    intro c hc
    rw [List.getLast?_append, hd] at hc
    cases hc
    exact hspace
  -- a match has twelve characters, so the start has hours
  have hcount := congrArg List.length hprint
  rw [List.length_append, hlen, length_print] at hcount
  have hhours : start.hours ≠ [] := by
    intro hnil
    rw [if_pos hnil] at hcount
    omega
  rw [if_neg hhours] at hcount
  have htwo := two_le_hours hstart hhours
  rw [print_eq_append_lastTwo htwo] at hprint
  refine ⟨⟨hhours, hfits⟩, (List.append_inj hprint ?_).2⟩
  rw [List.length_map, List.length_take]
  omega

/-- The start of a line with times is found with the last two digits of its hours, if it has
    hours and the end has two digits of them. -/
theorem searchTimestamps?_timingLine (hstart : f.HasTime start) (hstop : f.HasTime stop)
    (hbefore : ∀ c ∈ before, c = ' ' ∨ c = '\t') (hafter : ∀ c ∈ after, c = ' ' ∨ c = '\t')
    (hsettings : NoArrow settings) :
    searchTimestamps? (timingLine f start stop before after settings) =
      if start.hours ≠ [] ∧ stop.hours.length = 2 then some (start.lastTwo.print f.point)
      else none := by
  have hfound {first : List Char} :=
    @of_searchTimestamps?_timingLine f start stop before after settings hstart hstop hbefore hafter
      hsettings first
  split
  · next hcond =>
    -- the match behind the other digits is found, if none is found before it
    have htwo := two_le_hours hstart hcond.1
    have hline : timingLine f start stop before after settings =
        (start.hours.take (start.hours.length - 2)).map (fun d : Fin 10 => Nat.digitChar d.val) ++
          timingLine f start.lastTwo stop before after settings := by
      rw [timingLine, print_eq_append_lastTwo htwo]
      simp [timingLine]
    obtain ⟨first, hfirst⟩ := Option.isSome_iff_exists.mp (searchTimestamps?_isSome
      ((start.hours.take (start.hours.length - 2)).map fun d : Fin 10 => Nat.digitChar d.val)
      (matchTimestamps?_lastTwo htwo hstop hcond.2 hbefore hafter))
    rw [← hline] at hfirst
    rw [hfirst, (hfound hfirst).2]
  · next hcond =>
    cases hsearch : searchTimestamps? (timingLine f start stop before after settings) with
    | none => rfl
    | some first => exact absurd (hfound hsearch).1 hcond

end

/-! ## Values -/

/-- Digits behind a number move it to the left. -/
theorem foldl_hours (ds : List (Fin 10)) (n : Nat) :
    ds.foldl (fun n (d : Fin 10) => n * 10 + d.val) n =
      n * 10 ^ ds.length + ds.foldl (fun n (d : Fin 10) => n * 10 + d.val) 0 := by
  induction ds generalizing n with
  | nil => simp
  | cons d ds ih =>
    rw [List.foldl_cons, ih (n * 10 + d), List.foldl_cons, ih (0 * 10 + d), List.length_cons]
    ring

/-- The last two digits of the hours are the hours, below a hundred. -/
theorem hourCount_lastTwo {t : CueTime} (h : 2 ≤ t.hours.length) :
    t.lastTwo.hourCount = t.hourCount % 100 := by
  have hlen := length_lastTwo h
  -- the other digits count in hundreds
  have hsplit : t.hourCount = (t.hours.take (t.hours.length - 2)).foldl
      (fun n (d : Fin 10) => n * 10 + d.val) 0 * 100 + t.lastTwo.hourCount := by
    rw [CueTime.hourCount]
    conv_lhs => rw [← List.take_append_drop (t.hours.length - 2) t.hours]
    have hten : 10 ^ (t.hours.drop (t.hours.length - 2)).length = 100 := by
      rw [show (t.hours.drop (t.hours.length - 2)).length = 2 from hlen]
      norm_num
    rw [List.foldl_append, foldl_hours, hten]
    rfl
  have hsmall : t.lastTwo.hourCount < 100 := by
    unfold CueTime.hourCount
    match t.lastTwo.hours, hlen with
    | [a, b], _ =>
      simp only [List.foldl_cons, List.foldl_nil]
      omega
  omega

theorem total_lastTwo {t : CueTime} (h : 2 ≤ t.hours.length) :
    t.lastTwo.total = t.total ↔ t.hourCount < 100 := by
  have hcount := hourCount_lastTwo h
  have hrest : t.lastTwo.minutes = t.minutes ∧ t.lastTwo.seconds = t.seconds ∧
      t.lastTwo.millis = t.millis := ⟨rfl, rfl, rfl⟩
  simp only [CueTime.total, hrest]
  omega

/-- A marker can be made when the fields are numbers. -/
theorem timestampToMarker_of_fields {timestamp hours minutes seconds rest : List Char}
    {h m sec : Nat}
    (hpoint : PyStr.replaceChar ',' ['.'] timestamp =
      hours ++ ':' :: (minutes ++ ':' :: (seconds ++ '.' :: rest)))
    (hhours : ':' ∉ hours) (hminutes : ':' ∉ minutes) (hseconds : ':' ∉ seconds ++ '.' :: rest)
    (hwhole : '.' ∉ seconds) (hh : PyStr.int? hours = some (h : Int))
    (hm : PyStr.int? minutes = some (m : Int)) (hs : PyStr.int? seconds = some (sec : Int)) :
    timestampToMarker timestamp =
      some ("[t=".toList ++ PyStr.pad2 (h * 60 + m : Nat) ++ ":".toList ++
        PyStr.pad2 (sec : Nat) ++ "]".toList) := by
  have hfields : (PyStr.replaceChar ',' ['.'] timestamp).splitOn ':' =
      [hours, minutes, seconds ++ '.' :: rest] := by
    rw [hpoint, List.splitOn_append_cons_self_of_not_mem hhours,
      List.splitOn_append_cons_self_of_not_mem hminutes, List.splitOn_eq_singleton hseconds]
  -- the seconds are read up to the point
  have hseconds' : (seconds ++ '.' :: rest).takeWhile (fun c => c ≠ '.') = seconds := by
    have hkept : ∀ c ∈ seconds, decide (c ≠ '.') = true := by
      intro c hc
      rw [decide_eq_true_iff]
      rintro rfl
      exact hwhole hc
    rw [List.takeWhile_append_of_pos hkept]
    simp
  rw [timestampToMarker, hfields]
  simp only [hh, hm, hseconds', hs, bind, Option.bind]
  rfl

/-- Two digits are no separators of a timestamp. -/
theorem twoDigits_clean {n : Nat} (hn : n < 100) :
    ':' ∉ twoDigits n ∧ '.' ∉ twoDigits n ∧
      PyStr.replaceChar ',' ['.'] (twoDigits n) = twoDigits n := by
  obtain ⟨hcolon, hdot, hcomma, -⟩ := @digitChar_ne (n / 10) (by omega)
  obtain ⟨hcolon', hdot', hcomma', -⟩ := @digitChar_ne (n % 10) (by omega)
  simp [twoDigits, PyStr.replaceChar, hcolon.symm, hcolon'.symm, hdot.symm, hdot'.symm, hcomma,
    hcomma']

/-- The marker of a timestamp with two digits of hours. -/
theorem timestampToMarker_print {f : SubtitleFormat} {t : CueTime} (h : t.hours.length = 2) :
    timestampToMarker (t.print f.point) =
      some ("[t=".toList ++ PyStr.pad2 (t.total / 60000 : Nat) ++ ":".toList ++
        PyStr.pad2 (t.total / 1000 % 60 : Nat) ++ "]".toList) := by
  obtain ⟨hours, ⟨m, hm⟩, ⟨sec, hsec⟩, ⟨x, hx⟩⟩ := t
  obtain ⟨⟨a, ha⟩, ⟨b, hb⟩, rfl⟩ := List.length_eq_two.mp h
  obtain ⟨hcolon, -, hcomma, -⟩ := @digitChar_ne (x / 100) (by omega)
  have htens : a * 10 + b < 100 := by omega
  have hmillis : x % 100 < 100 := by omega
  have hm' : m < 100 := by omega
  have hsec' : sec < 100 := by omega
  have hhours : [Nat.digitChar a, Nat.digitChar b] = twoDigits (a * 10 + b) := by
    rw [twoDigits, show (a * 10 + b) / 10 = a by omega, show (a * 10 + b) % 10 = b by omega]
  -- either decimal point is a dot after the replacement
  have hpoint : PyStr.replaceChar ',' ['.'] [f.point] = ['.'] := by cases f <;> rfl
  have hprint : PyStr.replaceChar ',' ['.']
      (CueTime.print f.point ⟨[⟨a, ha⟩, ⟨b, hb⟩], ⟨m, hm⟩, ⟨sec, hsec⟩, ⟨x, hx⟩⟩) =
        twoDigits (a * 10 + b) ++ ':' :: (twoDigits m ++ ':' :: (twoDigits sec ++
          '.' :: Nat.digitChar (x / 100) :: twoDigits (x % 100))) := by
    have hcut : CueTime.print f.point ⟨[⟨a, ha⟩, ⟨b, hb⟩], ⟨m, hm⟩, ⟨sec, hsec⟩, ⟨x, hx⟩⟩ =
        [Nat.digitChar a, Nat.digitChar b] ++ ([':'] ++ (twoDigits m ++ ([':'] ++ (twoDigits sec ++
          ([f.point] ++ ([Nat.digitChar (x / 100)] ++ twoDigits (x % 100))))))) := rfl
    have hkept : PyStr.replaceChar ',' ['.'] [Nat.digitChar (x / 100)] =
        [Nat.digitChar (x / 100)] := by
      simp [PyStr.replaceChar, hcomma]
    have happend : ∀ u v, PyStr.replaceChar ',' ['.'] (u ++ v) =
        PyStr.replaceChar ',' ['.'] u ++ PyStr.replaceChar ',' ['.'] v :=
      fun u v => List.flatMap_append
    have hcolons : PyStr.replaceChar ',' ['.'] [':'] = [':'] := rfl
    rw [hcut, hhours]
    simp only [happend, (twoDigits_clean htens).2.2, (twoDigits_clean hm').2.2,
      (twoDigits_clean hsec').2.2, (twoDigits_clean hmillis).2.2, hpoint, hkept, hcolons]
    rfl
  have htotal : CueTime.total ⟨[⟨a, ha⟩, ⟨b, hb⟩], ⟨m, hm⟩, ⟨sec, hsec⟩, ⟨x, hx⟩⟩ =
      (((a * 10 + b) * 60 + m) * 60 + sec) * 1000 + x := by
    simp [CueTime.total, CueTime.hourCount]
  have hseconds : ':' ∉ twoDigits sec ++ '.' :: Nat.digitChar (x / 100) :: twoDigits (x % 100) := by
    simp [(twoDigits_clean hsec').1, (twoDigits_clean hmillis).1, hcolon.symm]
  rw [timestampToMarker_of_fields hprint (twoDigits_clean htens).1 (twoDigits_clean hm').1 hseconds
    (twoDigits_clean hsec').2.1 (int?_twoDigits htens) (int?_twoDigits hm') (int?_twoDigits hsec'),
    htotal]
  have hminutes : ((((a * 10 + b) * 60 + m) * 60 + sec) * 1000 + x) / 60000 =
      (a * 10 + b) * 60 + m := by omega
  have hrest : ((((a * 10 + b) * 60 + m) * 60 + sec) * 1000 + x) / 1000 % 60 = sec := by omega
  rw [hminutes, hrest]

end Inherent
