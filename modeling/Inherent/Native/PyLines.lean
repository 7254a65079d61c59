import Inherent.Native.PyStr

/-!
# Lines, joins and searches of Python strings

`splitlines(keepends=True)`, `join`, `find`, `startswith` and the other `str` methods that
the chunkers use on the text of a document.
-/

namespace PyStr

/-- The characters at which `splitlines` ends a line. -/
def isLineBreak (c : Char) : Bool :=
  let n := c.toNat
  (0x0a ≤ n && n ≤ 0x0d) || (0x1c ≤ n && n ≤ 0x1e) || n == 0x85 || n == 0x2028 || n == 0x2029

/-- A line ends at `c` when `rest` follows it: `"\r\n"` is one line end. -/
def endsLine (c : Char) (rest : List Char) : Bool :=
  isLineBreak c && !(c == '\r' && rest.head? == some '\n')

/-- `text.splitlines(keepends=True)`. -/
def splitlines : List Char → List (List Char)
  | [] => []
  | c :: rest =>
    if endsLine c rest then [c] :: splitlines rest
    else
      match splitlines rest with
      | [] => [[c]]
      | line :: lines => (c :: line) :: lines

/-- `text.splitlines()`. -/
def lines (text : List Char) : List (List Char) :=
  (splitlines text).map fun raw => raw.takeWhile fun c => !isLineBreak c

/-- `raw.rstrip("\r\n")`. -/
def rstripNewlines (raw : List Char) : List Char :=
  (raw.reverse.dropWhile fun c => c == '\r' || c == '\n').reverse

/-- `sep.join(texts)`. -/
def join (sep : List Char) (texts : List (List Char)) : List Char := sep.intercalate texts

/-- `text.find(pattern, start)`, or `none` for Python's `-1`. -/
def find (text pattern : List Char) (start : Nat) : Option Nat :=
  (List.range' start (text.length + 1 - start)).find? fun i => pattern.isPrefixOf (text.drop i)

/-- `text.startswith(pattern)`. -/
def startsWith (text pattern : List Char) : Bool := pattern.isPrefixOf text

/-- `text.endswith(pattern)`. -/
def endsWith (text pattern : List Char) : Bool := pattern.isSuffixOf text

/-- `str(n)` of a number. -/
def ofNat (n : Nat) : List Char := (Nat.repr n).toList

example : splitlines "a\r\nb\n\nc".toList = ["a\r\n".toList, "b\n".toList, "\n".toList, "c".toList] := by
  decide

/-! ## Lemmas about `splitlines` -/

/-- The lines with their ends are the text. -/
theorem flatten_splitlines (text : List Char) : (splitlines text).flatten = text := by
  induction text with
  | nil => rfl
  | cons c rest ih =>
    unfold splitlines
    split
    · simp [ih]
    · split
      · rename_i hnil
        rw [hnil] at ih
        simp [← ih]
      · rename_i line lines hcons
        rw [hcons] at ih
        simp [← ih]

/-- No line is empty before its end is taken off. -/
theorem ne_nil_of_mem_splitlines {text raw : List Char} (h : raw ∈ splitlines text) :
    raw ≠ [] := by
  induction text generalizing raw with
  | nil => simp [splitlines] at h
  | cons c rest ih =>
    unfold splitlines at h
    split at h
    · cases h with
      | head => simp
      | tail _ h => exact ih h
    · split at h
      · rw [List.mem_singleton] at h
        simp [h]
      · rename_i line lines hcons
        cases h with
        | head => simp
        | tail _ h => exact ih (by rw [hcons]; exact List.mem_cons_of_mem _ h)

/-- Whether a character ends a line depends on the next one only. -/
theorem endsLine_congr {c : Char} {rest rest' : List Char} (h : rest.head? = rest'.head?) :
    endsLine c rest = endsLine c rest' := by
  rw [endsLine, endsLine, h]

/-- The text behind the first line has the other lines. -/
theorem splitlines_tail {text line : List Char} {lines : List (List Char)}
    (h : splitlines text = line :: lines) : splitlines lines.flatten = lines := by
  induction text generalizing line lines with
  | nil => cases h
  | cons c rest ih =>
    unfold splitlines at h
    split at h
    · rw [← (List.cons.inj h).2, flatten_splitlines]
    · split at h
      · rw [← (List.cons.inj h).2]
        rfl
      · rename_i first others hrest
        rw [← (List.cons.inj h).2]
        exact ih hrest

/-- The last lines are those of the text they stand in. -/
theorem splitlines_drop {text : List Char} {front back : List (List Char)}
    (h : splitlines text = front ++ back) : splitlines back.flatten = back := by
  induction front generalizing text with
  | nil =>
    rw [List.nil_append] at h
    rw [← h, flatten_splitlines]
  | cons line front ih => exact ih (splitlines_tail h)

/-- So are the first lines. -/
theorem splitlines_take {text : List Char} {front back : List (List Char)}
    (h : splitlines text = front ++ back) : splitlines front.flatten = front := by
  induction text generalizing front with
  | nil =>
    have hfront : front = [] := (List.append_eq_nil_iff.mp h.symm).1
    rw [hfront]
    rfl
  | cons c rest ih =>
    cases front with
    | nil => rfl
    | cons line front =>
      have hflat := flatten_splitlines rest
      unfold splitlines at h
      by_cases hends : endsLine c rest = true
      · rw [if_pos hends, List.cons_append] at h
        obtain ⟨rfl, hrest⟩ := List.cons.inj h
        have hends' : endsLine c front.flatten = true := by
          rw [hrest, List.flatten_append] at hflat
          cases hfront : front.flatten with
          | nil =>
            simp only [endsLine, Bool.and_eq_true] at hends ⊢
            exact ⟨hends.1, by simp⟩
          | cons d more =>
            rw [← hends]
            exact endsLine_congr (by rw [← hflat, hfront]; rfl)
        rw [List.flatten_cons, List.singleton_append, splitlines, if_pos hends', ih hrest]
      · rw [if_neg hends] at h
        split at h
        · -- the text is one character
          rename_i hnil
          rw [hnil] at hflat
          obtain ⟨rfl, hfront⟩ := List.cons.inj h
          rw [(List.append_eq_nil_iff.mp hfront.symm).1]
          rw [← hflat] at hends
          simp only [List.flatten_cons, List.flatten_nil, List.append_nil, splitlines]
          split <;> rfl
        · rename_i first others hothers
          obtain ⟨rfl, hfront⟩ := List.cons.inj h
          have hne : first ≠ [] := ne_nil_of_mem_splitlines (hothers ▸ List.mem_cons_self)
          obtain ⟨d, more, rfl⟩ := List.exists_cons_of_ne_nil hne
          rw [hfront] at hothers
          have hrest := @ih ((d :: more) :: front) hothers
          rw [hothers] at hflat
          have hhead : ((d :: more) :: front).flatten.head? = rest.head? := by
            rw [← hflat]
            rfl
          have hends' : ¬ endsLine c ((d :: more) :: front).flatten = true := by
            rw [endsLine_congr hhead]
            exact hends
          have hcons : ((c :: d :: more) :: front).flatten = c :: ((d :: more) :: front).flatten := rfl
          rw [hcons, splitlines, if_neg hends', hrest]

theorem isSpace_of_isLineBreak {c : Char} (h : isLineBreak c = true) : isSpace c = true := by
  simp only [isLineBreak, Bool.or_eq_true, Bool.and_eq_true, decide_eq_true_eq, beq_iff_eq] at h
  simp only [isSpace, Bool.or_eq_true, Bool.and_eq_true, decide_eq_true_eq, beq_iff_eq]
  omega

/-- A line that another one follows ends with whitespace. -/
theorem isSpace_getLast_of_splitlines {text line next : List Char} {front back : List (List Char)}
    (h : splitlines text = front ++ line :: next :: back) :
    ∃ body c, line = body ++ [c] ∧ isSpace c = true := by
  induction text generalizing front line with
  | nil => simp [splitlines] at h
  | cons c rest ih =>
    unfold splitlines at h
    by_cases hends : endsLine c rest = true
    · rw [if_pos hends] at h
      cases front with
      | nil =>
        obtain ⟨rfl, -⟩ := List.cons.inj h
        -- the line ends here, with its line break
        have hbreak : isLineBreak c = true := by
          simp only [endsLine, Bool.and_eq_true] at hends
          exact hends.1
        exact ⟨[], c, rfl, isSpace_of_isLineBreak hbreak⟩
      | cons first front => exact ih (List.cons.inj h).2
    · rw [if_neg hends] at h
      split at h
      · cases front with
        | nil => cases (List.cons.inj h).2
        | cons first front => simp at h
      · rename_i first others hothers
        cases front with
        | nil =>
          obtain ⟨rfl, hrest⟩ := List.cons.inj h
          have hfirst : splitlines rest = [] ++ first :: next :: back := by rw [hothers, hrest]; rfl
          obtain ⟨body, d, rfl, hd⟩ := ih hfirst
          exact ⟨c :: body, d, rfl, hd⟩
        | cons first' front =>
          have hfirst : splitlines rest = (first :: front) ++ line :: next :: back := by
            rw [hothers, (List.cons.inj h).2]
            rfl
          exact ih hfirst

/-- A line has a newline at its end only. -/
theorem newline_notMem_of_mem_splitlines {text front : List Char} {last : Char}
    (h : front ++ [last] ∈ splitlines text) : '\n' ∉ front := by
  induction text generalizing front with
  | nil => simp [splitlines] at h
  | cons c rest ih =>
    unfold splitlines at h
    by_cases hends : endsLine c rest = true
    · rw [if_pos hends] at h
      rcases List.mem_cons.mp h with h | h
      · have hlen := congrArg List.length h
        simp only [List.length_append, List.length_singleton, Nat.add_eq_right] at hlen
        rw [List.length_eq_zero_iff.mp hlen]
        exact List.not_mem_nil
      · exact ih h
    · rw [if_neg hends] at h
      -- a newline would have ended the line
      have hc : '\n' ≠ c := by
        rintro rfl
        exact hends (by simp [endsLine, isLineBreak])
      split at h
      · have hlen := congrArg List.length (List.mem_singleton.mp h)
        simp only [List.length_append, List.length_singleton, Nat.add_eq_right] at hlen
        rw [List.length_eq_zero_iff.mp hlen]
        exact List.not_mem_nil
      · rename_i line lines hlines
        rcases List.mem_cons.mp h with h | h
        · cases front with
          | nil => exact List.not_mem_nil
          | cons d front =>
            obtain ⟨rfl, hline⟩ := List.cons.inj h
            have hmem : front ++ [last] ∈ splitlines rest := by
              rw [hlines]
              exact List.mem_cons.mpr (.inl hline)
            rw [List.mem_cons, not_or]
            exact ⟨hc, ih hmem⟩
        · exact ih (by rw [hlines]; exact List.mem_cons_of_mem _ h)

/-- `rstrip("\r\n")` takes line ends off, and nothing else. -/
theorem exists_append_rstripNewlines (raw : List Char) :
    ∃ newline, raw = rstripNewlines raw ++ newline ∧ ∀ c ∈ newline, c = '\r' ∨ c = '\n' := by
  refine ⟨(raw.reverse.takeWhile fun c => c == '\r' || c == '\n').reverse, ?_, ?_⟩
  · rw [rstripNewlines, ← List.reverse_append, List.takeWhile_append_dropWhile,
      List.reverse_reverse]
  · intro c hc
    have hp := List.mem_takeWhile_imp (List.mem_reverse.mp hc)
    simpa using hp

/-- No newline is left in a line. -/
theorem newline_notMem_rstripNewlines {text raw : List Char} (h : raw ∈ splitlines text) :
    '\n' ∉ rstripNewlines raw := by
  rcases List.eq_nil_or_concat raw with rfl | ⟨front, last, rfl⟩
  · exact List.not_mem_nil
  · rw [List.concat_eq_append] at h ⊢
    have hfront := newline_notMem_of_mem_splitlines h
    unfold rstripNewlines
    rw [List.reverse_append, List.reverse_singleton, List.singleton_append, List.dropWhile_cons]
    split
    · intro hmem
      have := (List.dropWhile_suffix _).subset (List.mem_reverse.mp hmem)
      exact hfront (List.mem_reverse.mp this)
    · rename_i hlast
      rw [List.reverse_cons, List.reverse_reverse, List.mem_append, List.mem_singleton]
      rintro (hmem | rfl)
      · exact hfront hmem
      · exact hlast (by decide)

/-! ## Lemmas about `strip` -/

/-- All of the text is whitespace. -/
def Blank (text : List Char) : Prop := ∀ c ∈ text, isSpace c = true

theorem blank_nil : Blank [] := fun _ hc => absurd hc List.not_mem_nil

theorem Blank.append {a b : List Char} (ha : Blank a) (hb : Blank b) : Blank (a ++ b) := by
  intro c hc
  rcases List.mem_append.mp hc with hc | hc
  · exact ha c hc
  · exact hb c hc

/-- What `lstrip` leaves starts with more than whitespace. -/
theorem isSpace_head_lstrip {text rest : List Char} {c : Char} (h : lstrip text = c :: rest) :
    isSpace c = false := by
  have hhead := List.head?_dropWhile_not isSpace text
  rw [lstrip] at h
  rw [h] at hhead
  exact hhead

/-- A blank prefix does not count for `lstrip`. -/
theorem lstrip_append_of_blank {before text : List Char} (h : Blank before) :
    lstrip (before ++ text) = lstrip text := by
  rw [lstrip, List.dropWhile_append_of_pos h, lstrip]

/-- A text that starts with more than whitespace is not changed by `lstrip`. -/
theorem lstrip_cons_of_not_space {c : Char} {text : List Char} (h : isSpace c = false) :
    lstrip (c :: text) = c :: text := by
  simp [lstrip, h]

/-- What `strip` leaves is the start of what `lstrip` leaves. -/
theorem strip_prefix_lstrip (text : List Char) : strip text <+: lstrip text := by
  have hsuffix : lstrip (lstrip text).reverse <:+ (lstrip text).reverse :=
    List.dropWhile_suffix isSpace
  rw [strip, ← List.reverse_suffix, List.reverse_reverse]
  exact hsuffix

/-- What `strip` leaves starts with more than whitespace. -/
theorem isSpace_head_strip {text rest : List Char} {c : Char} (h : strip text = c :: rest) :
    isSpace c = false := by
  obtain ⟨after, hafter⟩ := strip_prefix_lstrip text
  rw [h, List.cons_append] at hafter
  exact isSpace_head_lstrip hafter.symm

/-- What `strip` leaves ends with more than whitespace. -/
theorem isSpace_getLast_strip {text front : List Char} {c : Char}
    (h : strip text = front ++ [c]) : isSpace c = false := by
  have hrev : lstrip (lstrip text).reverse = c :: front.reverse := by
    have := congrArg List.reverse h
    rw [strip, List.reverse_reverse] at this
    simpa using this
  exact isSpace_head_lstrip hrev

/-- `strip` leaves nothing of a blank text, and only of a blank text. -/
theorem strip_eq_nil_iff {text : List Char} : strip text = [] ↔ Blank text := by
  constructor
  · intro h
    obtain ⟨before, after, htext, hbefore, hafter⟩ := exists_append_strip text
    rw [h, List.append_nil] at htext
    rw [htext]
    exact Blank.append hbefore hafter
  · intro h
    have hl : lstrip text = [] := List.dropWhile_eq_nil_iff.mpr h
    rw [strip, hl]
    rfl

/-- `lstrip` does not reach what follows a text that is not blank. -/
theorem lstrip_append_of_not_blank {a : List Char} (b : List Char) (h : ¬ Blank a) :
    lstrip (a ++ b) = lstrip a ++ b := by
  have hne : lstrip a ≠ [] := fun hnil => h (List.dropWhile_eq_nil_iff.mp hnil)
  rw [lstrip, List.dropWhile_append, ← lstrip]
  simp [hne]

/-- Whitespace around a text does not count for `strip`. -/
theorem strip_append_of_blank {text after : List Char} (h : Blank after) :
    strip (text ++ after) = strip text := by
  by_cases htext : Blank text
  · rw [strip_eq_nil_iff.mpr htext, strip_eq_nil_iff.mpr (htext.append h)]
  · have hl := lstrip_append_of_not_blank after htext
    have hblank : Blank after.reverse := fun c hc => h c (List.mem_reverse.mp hc)
    rw [strip, strip, hl, List.reverse_append, lstrip_append_of_blank hblank]

theorem strip_blank_append {before text : List Char} (h : Blank before) :
    strip (before ++ text) = strip text := by
  rw [strip, strip, lstrip_append_of_blank h]

theorem strip_eq_rstrip_lstrip (text : List Char) : strip text = rstrip (lstrip text) := rfl

/-- `rstrip` does not reach what comes before a text that is not blank. -/
theorem rstrip_append_of_not_blank (a : List Char) {b : List Char} (h : ¬ Blank b) :
    rstrip (a ++ b) = a ++ rstrip b := by
  have hrev : ¬ Blank b.reverse := fun hblank => h fun c hc => hblank c (List.mem_reverse.mpr hc)
  rw [rstrip, List.reverse_append, lstrip_append_of_not_blank _ hrev, List.reverse_append,
    List.reverse_reverse, rstrip]

/-- `strip` takes whitespace off at the two ends. -/
theorem strip_append_append {a c : List Char} (b : List Char) (ha : ¬ Blank a) (hc : ¬ Blank c) :
    strip (a ++ b ++ c) = lstrip a ++ b ++ rstrip c := by
  rw [strip_eq_rstrip_lstrip, List.append_assoc, lstrip_append_of_not_blank _ ha,
    ← List.append_assoc, rstrip_append_of_not_blank _ hc]

/-- `strip` does not reach a part that begins and ends with more than whitespace. -/
theorem strip_around (a c : List Char) {text : List Char} (hne : text ≠ [])
    (hstrip : strip text = text) : strip (a ++ text ++ c) = lstrip a ++ text ++ rstrip c := by
  have hhead : lstrip (a ++ (text ++ c)) = lstrip a ++ (text ++ c) := by
    by_cases ha : Blank a
    · obtain ⟨d, more, rfl⟩ := List.exists_cons_of_ne_nil hne
      rw [lstrip_append_of_blank ha, List.cons_append,
        lstrip_cons_of_not_space (isSpace_head_strip hstrip)]
      have hnil : lstrip a = [] := List.dropWhile_eq_nil_iff.mpr ha
      rw [hnil, List.nil_append]
    · exact lstrip_append_of_not_blank _ ha
  have hlast : rstrip (lstrip a ++ text ++ c) = lstrip a ++ text ++ rstrip c := by
    by_cases hc : Blank c
    · obtain ⟨more, d, hd⟩ := (List.eq_nil_or_concat text).resolve_left hne
      rw [List.concat_eq_append] at hd
      have hspace := isSpace_getLast_strip (hstrip.trans hd)
      have hrc : lstrip c.reverse = [] :=
        List.dropWhile_eq_nil_iff.mpr fun e he => hc e (List.mem_reverse.mp he)
      have hblank : Blank c.reverse := fun e he => hc e (List.mem_reverse.mp he)
      rw [rstrip, List.reverse_append, lstrip_append_of_blank hblank, rstrip, hrc, hd,
        ← List.append_assoc, List.reverse_concat, lstrip_cons_of_not_space hspace]
      simp
    · exact rstrip_append_of_not_blank _ hc
  rw [strip_eq_rstrip_lstrip, List.append_assoc, hhead, ← List.append_assoc, hlast]

/-- A text that begins and ends with more than whitespace is not changed by `strip`. -/
theorem strip_of_ends {text : List Char} (hhead : ∀ c ∈ text.head?, isSpace c = false)
    (hlast : ∀ c ∈ text.getLast?, isSpace c = false) : strip text = text := by
  cases htext : text with
  | nil => rfl
  | cons c rest =>
    have hc : isSpace c = false := hhead c (by simp [htext])
    rw [strip, lstrip_cons_of_not_space hc]
    cases hrev : (c :: rest).reverse with
    | nil => simp at hrev
    | cons d front =>
      have hd : isSpace d = false := by
        apply hlast
        rw [htext, ← List.head?_reverse, hrev]
        rfl
      rw [lstrip_cons_of_not_space hd, ← hrev, List.reverse_reverse]

/-- `strip` makes no text longer. -/
theorem length_strip_le (text : List Char) : (strip text).length ≤ text.length := by
  obtain ⟨before, after, htext, -, -⟩ := exists_append_strip text
  have hlen := congrArg List.length htext
  simp only [List.length_append] at hlen
  omega

/-- A stripped text is stripped. -/
theorem strip_strip (text : List Char) : strip (strip text) = strip text := by
  apply strip_of_ends
  · intro c hc
    obtain ⟨rest, hrest⟩ := List.head?_eq_some_iff.mp hc
    exact isSpace_head_strip hrest
  · intro c hc
    obtain ⟨front, hfront⟩ := List.getLast?_eq_some_iff.mp hc
    exact isSpace_getLast_strip hfront

/-- What is in a text stripped is in the text stripped. -/
theorem strip_infix_strip {a b : List Char} (h : a <:+: b) (hne : strip a ≠ []) :
    strip a <:+: strip b := by
  obtain ⟨before, after, rfl⟩ := h
  obtain ⟨x, y, ha, -, -⟩ := exists_append_strip a
  have hsplit : before ++ a ++ after = before ++ x ++ strip a ++ (y ++ after) := by
    conv_lhs => rw [ha]
    simp only [List.append_assoc]
  rw [hsplit, strip_around _ _ hne (strip_strip a)]
  exact List.infix_append _ _ _

/-- A text that ends with a stripped text ends with it when it is stripped. -/
theorem suffix_strip_append (a : List Char) {b : List Char} (hne : strip b ≠ []) :
    strip b <:+ strip (a ++ strip b) := by
  have h := strip_around a [] hne (strip_strip b)
  rw [List.append_nil] at h
  rw [h]
  exact ⟨lstrip a, (List.append_nil _).symm⟩

/-! ## Lemmas about `join` -/

@[simp] theorem join_nil (sep : List Char) : join sep [] = [] := rfl

@[simp] theorem join_singleton (sep text : List Char) : join sep [text] = text := by
  simp [join, List.intercalate]

@[simp] theorem join_cons_cons (sep a b : List Char) (texts : List (List Char)) :
    join sep (a :: b :: texts) = a ++ sep ++ join sep (b :: texts) := by
  simp [join, List.intercalate]

/-- Texts are joined behind others. -/
theorem join_append {sep : List Char} {texts texts' : List (List Char)} (hne : texts ≠ [])
    (hne' : texts' ≠ []) :
    join sep (texts ++ texts') = join sep texts ++ sep ++ join sep texts' := by
  induction texts with
  | nil => exact absurd rfl hne
  | cons a texts ih =>
    cases texts with
    | nil =>
      obtain ⟨b, texts', rfl⟩ := List.exists_cons_of_ne_nil hne'
      simp
    | cons b texts =>
      have hrest := ih (by simp)
      simp only [List.cons_append, join_cons_cons] at hrest ⊢
      rw [hrest]
      simp only [List.append_assoc]

/-- A text is joined behind others. -/
theorem join_concat {sep : List Char} {texts : List (List Char)} (hne : texts ≠ [])
    (text : List Char) : join sep (texts ++ [text]) = join sep texts ++ sep ++ text := by
  rw [join_append hne (by simp), join_singleton]

/-- The characters of a text are in the joined text. -/
theorem mem_join {sep text : List Char} {texts : List (List Char)} {c : Char}
    (htext : text ∈ texts) (hc : c ∈ text) : c ∈ join sep texts := by
  induction texts with
  | nil => cases htext
  | cons a texts ih =>
    cases texts with
    | nil =>
      rw [List.mem_singleton.mp htext] at hc
      rwa [join_singleton]
    | cons b texts =>
      rw [join_cons_cons]
      rcases List.mem_cons.mp htext with rfl | htext
      · exact List.mem_append_left _ (List.mem_append_left _ hc)
      · exact List.mem_append_right _ (ih htext)

/-- Every text is in the joined text. -/
theorem infix_join {sep text : List Char} {texts : List (List Char)} (htext : text ∈ texts) :
    text <:+: join sep texts := by
  induction texts with
  | nil => cases htext
  | cons a texts ih =>
    cases texts with
    | nil =>
      rw [List.mem_singleton.mp htext, join_singleton]
    | cons b texts =>
      rw [join_cons_cons]
      rcases List.mem_cons.mp htext with rfl | htext
      · rw [List.append_assoc]
        exact (List.prefix_append _ _).isInfix
      · exact (ih htext).trans (List.suffix_append _ _).isInfix

/-- A joined text is blank only if all its texts are. -/
theorem strip_join_ne_nil {sep text : List Char} {texts : List (List Char)}
    (htext : text ∈ texts) (hne : strip text ≠ []) : strip (join sep texts) ≠ [] := by
  rw [ne_eq, strip_eq_nil_iff] at hne ⊢
  exact fun hblank => hne fun c hc => hblank c (mem_join htext hc)

/-- Texts that are blank are joined to a blank. -/
theorem Blank.join {sep : List Char} {texts : List (List Char)} (hsep : Blank sep)
    (h : ∀ text ∈ texts, Blank text) : Blank (PyStr.join sep texts) := by
  induction texts with
  | nil => exact blank_nil
  | cons a texts ih =>
    have ha := h a List.mem_cons_self
    cases texts with
    | nil => rwa [join_singleton]
    | cons b texts =>
      rw [join_cons_cons]
      exact (ha.append hsep).append (ih fun text ht => h text (List.mem_cons_of_mem _ ht))

/-! ## Lemmas about `find` -/

/-- A forward search from a blank finds a text that starts with more than whitespace right
    behind it, and one at the position itself in any case. -/
theorem find_eq_some (before : List Char) {gap pattern : List Char} (rest : List Char)
    (hgap : Blank gap)
    (hpattern : gap = [] ∨ ∃ c tail, pattern = c :: tail ∧ isSpace c = false) :
    find (before ++ gap ++ pattern ++ rest) pattern before.length =
      some (before.length + gap.length) := by
  rw [find, List.find?_range'_eq_some]
  refine ⟨?_, ?_, ?_⟩
  · rw [List.isPrefixOf_iff_prefix, List.append_assoc, ← List.length_append, List.drop_left]
    exact List.prefix_append _ _
  · rw [List.mem_range'_1]
    simp only [List.length_append]
    omega
  · intro j hj hlt
    rcases hpattern with hnil | ⟨c, tail, hc, hspace⟩
    · simp only [hnil, List.length_nil] at hlt
      omega
    · -- the position is one of the blank, where the pattern does not start
      rw [Bool.not_eq_true', Bool.eq_false_iff, ne_eq, List.isPrefixOf_iff_prefix, hc]
      rintro ⟨after, hafter⟩
      have hget : (before ++ gap ++ pattern ++ rest)[j]? = some c := by
        rw [← List.head?_drop, hc, ← hafter]
        rfl
      rw [List.append_assoc, List.append_assoc,
        List.getElem?_append_right hj, List.getElem?_append_left (by omega)] at hget
      have := hgap c (List.mem_of_getElem? hget)
      rw [hspace] at this
      cases this

/-! ## Lines that are not blank -/

theorem splitlines_of_forall {text : List Char} (hne : text ≠ [])
    (h : ∀ c ∈ text, isLineBreak c = false) : splitlines text = [text] := by
  induction text with
  | nil => exact absurd rfl hne
  | cons c rest ih =>
    have hc : endsLine c rest = false := by simp [endsLine, h c List.mem_cons_self]
    rw [splitlines, hc]
    cases rest with
    | nil => rfl
    | cons d rest =>
      rw [ih (by simp) fun e he => h e (List.mem_cons_of_mem _ he)]
      rfl

/-- A line goes up to its end. -/
theorem splitlines_append {line : List Char} (h : ∀ c ∈ line, isLineBreak c = false) (c : Char)
    (text : List Char) :
    splitlines (line ++ c :: text) =
      match splitlines (c :: text) with
      | [] => []
      | first :: rest => (line ++ first) :: rest := by
  induction line with
  | nil => cases hsplit : splitlines (c :: text) <;> simp [hsplit]
  | cons d line ih =>
    have hd : endsLine d (line ++ c :: text) = false := by
      simp [endsLine, h d List.mem_cons_self]
    have ih := ih fun e he => h e (List.mem_cons_of_mem _ he)
    rw [List.cons_append, splitlines, hd, ih]
    have hne : splitlines (c :: text) ≠ [] := by
      intro hnil
      have := flatten_splitlines (c :: text)
      simp [hnil] at this
    obtain ⟨first, rest, hcut⟩ := List.exists_cons_of_ne_nil hne
    rw [hcut]
    rfl

/-- A line end ends the line before it; one of two characters leaves nothing more. -/
theorem filter_lines_append {line : List Char} (h : ∀ c ∈ line, isLineBreak c = false) {c : Char}
    (hc : isLineBreak c = true) (rest : List Char) :
    (lines (line ++ c :: rest)).filter (fun line => strip line ≠ []) =
      ([line] ++ lines rest).filter fun line => strip line ≠ [] := by
  have hline : ∀ after, (line ++ c :: after).takeWhile (fun c => !isLineBreak c) = line := by
    intro after
    rw [List.takeWhile_append_of_pos fun d hd => by simp [h d hd]]
    simp [hc]
  rw [lines, splitlines_append h]
  cases hends : endsLine c rest with
  | true =>
    rw [splitlines, if_pos hends]
    simp only [List.map_cons, hline]
    rfl
  | false =>
    -- `c` is the first of two characters
    have hrest : ∃ after, rest = '\n' :: after := by
      cases rest with
      | nil => simp [endsLine, hc] at hends
      | cons d after =>
        simp only [endsLine, hc, List.head?_cons, Bool.true_and, Bool.not_eq_false',
          Bool.and_eq_true] at hends
        exact ⟨after, by simpa using hends.2⟩
    obtain ⟨after, rfl⟩ := hrest
    have hnewline : splitlines ('\n' :: after) = ['\n'] :: splitlines after := rfl
    have hblank : List.takeWhile (fun c => !isLineBreak c) ['\n'] = [] := rfl
    rw [splitlines, hends, lines, hnewline]
    simp only [Bool.false_eq_true, if_false, List.map_cons, hline, hblank]
    have hnil : strip [] = [] := rfl
    simp only [List.singleton_append, List.filter_cons, hnil, ne_eq, not_true_eq_false,
      decide_false, Bool.false_eq_true, if_false]

/-- The lines that are not blank are the pieces between line ends that are not blank. -/
theorem filter_lines (text : List Char) :
    (lines text).filter (fun line => strip line ≠ []) =
      (text.splitOnP isLineBreak).filter fun line => strip line ≠ [] := by
  suffices hbehind : ∀ line : List Char, (∀ c ∈ line, isLineBreak c = false) →
      (lines (line ++ text)).filter (fun line => strip line ≠ []) =
        ((line ++ text).splitOnP isLineBreak).filter fun line => strip line ≠ [] from
    hbehind [] (by simp)
  induction text with
  | nil =>
    intro line h
    rw [List.append_nil, List.splitOnP_eq_singleton h]
    by_cases hne : line = []
    · subst hne
      rfl
    · have hwhole : line.takeWhile (fun c => !isLineBreak c) = line :=
        List.takeWhile_eq_self_iff.mpr fun c hc => by simp [h c hc]
      rw [lines, splitlines_of_forall hne h, List.map_singleton, hwhole]
  | cons c rest ih =>
    intro line h
    cases hc : isLineBreak c with
    | true =>
      rw [filter_lines_append h hc, List.splitOnP_append_cons _ _ hc,
        List.splitOnP_eq_singleton h, List.filter_append, List.filter_append]
      exact congrArg _ (ih [] (by simp))
    | false =>
      have hnext := ih (line ++ [c]) fun d hd => by
        rcases List.mem_append.mp hd with hd | hd
        · exact h d hd
        · exact List.mem_singleton.mp hd ▸ hc
      simpa using hnext

theorem splitOnP_join_newline {lines : List (List Char)} (hne : lines ≠ []) :
    (join ['\n'] lines).splitOnP isLineBreak =
      lines.flatMap fun line => line.splitOnP isLineBreak := by
  have hnewline : isLineBreak '\n' = true := by decide
  induction lines with
  | nil => exact absurd rfl hne
  | cons line lines ih =>
    cases lines with
    | nil => simp
    | cons next lines =>
      rw [join_cons_cons, List.append_assoc, List.singleton_append,
        List.splitOnP_append_cons _ _ hnewline, ih (by simp), ← List.flatMap_cons]

end PyStr
