import Inherent.ForStd.SeparatedJoin
import Inherent.Native.ExtractedText

/-!
# The normalisation of PDF pages

`_normalize_pdf_page_text` deletes the hyphens of wrapped words first and the blanks at the ends of
lines afterwards.  A hyphen with blanks behind it, at the end of its line, is at no time followed by
the line break when the first pass looks, and is left for a second call.
-/

namespace Inherent

open Substitution (Matcher Segment before originals shown)
open CollapsedRuns (collapse)

/-! ## Wraps -/

/-- A lower case letter, a hyphen, `blanks`, a line break and a lower case letter stand in the
    text. -/
def WrapsWith (blanks text : List Char) : Prop :=
  ∃ a b : Char, a.isLower = true ∧ b.isLower = true ∧
    (a :: '-' :: blanks) ++ '\n' :: [b] <:+: text

/-- Whitespace within a line. -/
def InlineBlank (blanks : List Char) : Prop := ∀ c ∈ blanks, PyStr.isSpace c = true ∧ c ≠ '\n'

theorem isSpace_of_isLower {c : Char} (h : c.isLower = true) : PyStr.isSpace c = false := by
  simp only [Char.isLower, Bool.and_eq_true, decide_eq_true_eq, ge_iff_le,
    UInt32.le_iff_toNat_le] at h
  simp only [PyStr.isSpace, Bool.or_eq_false_iff, Bool.and_eq_false_iff, decide_eq_false_iff_not,
    beq_eq_false_iff_ne]
  simp at h
  omega

theorem isSpace_of_isHorizontal {c : Char} (h : isHorizontal c = true) :
    PyStr.isSpace c = true ∧ c ≠ '\n' := by
  rcases Bool.or_eq_true_iff.mp h with h | h
  · rw [eq_of_beq h]
    decide
  · rw [eq_of_beq h]
    decide

theorem isHorizontal_of_isLower {c : Char} (h : c.isLower = true) : isHorizontal c = false := by
  cases hc : isHorizontal c with
  | false => rfl
  | true =>
    have hspace := (isSpace_of_isHorizontal hc).1
    rw [isSpace_of_isLower h] at hspace
    cases hspace

theorem ne_newline_of_isLower {c : Char} (h : c.isLower = true) : c ≠ '\n' := by
  rintro rfl
  cases h

/-! ## The first pass -/

namespace pdfHyphenLinebreak

/-- Nothing is found but at a hyphen before a line break. -/
theorem find_eq_none {prev : Option Char} {xs : List Char}
    (h : ∀ rest, xs ≠ '-' :: '\n' :: rest) : pdfHyphenLinebreak.find prev xs = none := by
  cases hfind : pdfHyphenLinebreak.find prev xs with
  | none => rfl
  | some n =>
    have hfind : (if prev.any Char.isLower = true then hyphenLinebreak xs else none) = some n :=
      hfind
    split at hfind
    · obtain ⟨-, c, rest, hxs, -⟩ := hyphenLinebreak_eq_some hfind
      exact absurd hxs (h _)
    · cases hfind

theorem of_find {prev : Option Char} {xs : List Char} {n : Nat}
    (h : pdfHyphenLinebreak.find prev xs = some n) :
    n = 2 ∧ (∃ a ∈ prev, a.isLower = true) ∧
      ∃ c rest, xs = '-' :: '\n' :: c :: rest ∧ c.isLower = true := by
  have h : (if prev.any Char.isLower = true then hyphenLinebreak xs else none) = some n := h
  split at h
  · rename_i hprev
    obtain ⟨hn, hxs⟩ := hyphenLinebreak_eq_some h
    obtain ⟨a, ha, hlower⟩ := (Option.any_eq_true _ _).mp hprev
    exact ⟨hn, ⟨a, ha, hlower⟩, hxs⟩
  · cases h

theorem find_eq_some {a b : Char} (ha : a.isLower = true) (hb : b.isLower = true)
    (rest : List Char) : pdfHyphenLinebreak.find (some a) ('-' :: '\n' :: b :: rest) = some 2 := by
  show (if (some a).any Char.isLower = true then hyphenLinebreak _ else none) = some 2
  rw [if_pos (by simpa using ha), hyphenLinebreak, if_pos hb]

/-- A match is deleted, and the letter behind it is left. -/
theorem deleted_match {a b : Char} (ha : a.isLower = true) (hb : b.isLower = true)
    (rest : List Char) : pdfHyphenLinebreak.deleted (some a) ('-' :: '\n' :: b :: rest) =
      b :: pdfHyphenLinebreak.deleted (some b) rest := by
  have hnext : pdfHyphenLinebreak.find (some '\n') (b :: rest) = none := by
    apply find_eq_none
    rintro more heq
    rw [(List.cons.inj heq).1] at hb
    cases hb
  rw [Matcher.deleted, Matcher.scan_mark _ _ (find_eq_some ha hb rest)]
  exact Matcher.deleted_of_none hnext

/-- Two characters that are left side by side and are not both lower case letters have been side by
    side. -/
theorem exists_of_deleted {c d : Char} {xs rest : List Char}
    (h : pdfHyphenLinebreak.deleted (some c) xs = d :: rest)
    (hcd : ¬ (c.isLower = true ∧ d.isLower = true)) :
    ∃ rest', xs = d :: rest' ∧ pdfHyphenLinebreak.deleted (some d) rest' = rest := by
  cases hfind : pdfHyphenLinebreak.find (some c) xs with
  | none =>
    cases xs with
    | nil =>
      rw [Matcher.deleted_nil] at h
      cases h
    | cons e xs =>
      rw [Matcher.deleted_of_none hfind] at h
      obtain ⟨rfl, hrest⟩ := List.cons.inj h
      exact ⟨xs, rfl, hrest⟩
  | some n =>
    -- the letter behind a match that is deleted is what comes next
    obtain ⟨rfl, ⟨a, ha, hlower⟩, b, more, rfl, hb⟩ := of_find hfind
    cases ha
    rw [deleted_match hlower hb] at h
    rw [(List.cons.inj h).1] at hb
    exact absurd ⟨hlower, hb⟩ hcd

/-- A part without letters side by side is left only where it was. -/
theorem exists_append_of_deleted {c : Char} {w xs rest : List Char}
    (h : pdfHyphenLinebreak.deleted (some c) xs = w ++ rest)
    (hchain : (c :: w).IsChain fun c d => ¬ (c.isLower = true ∧ d.isLower = true)) :
    ∃ rest', xs = w ++ rest' := by
  induction w generalizing c xs with
  | nil => exact ⟨xs, rfl⟩
  | cons d w ih =>
    obtain ⟨hcd, hchain⟩ := List.isChain_cons_cons.mp hchain
    obtain ⟨rest', rfl, hrest⟩ := exists_of_deleted h hcd
    obtain ⟨rest'', rfl⟩ := ih hrest hchain
    exact ⟨rest'', rfl⟩

/-- A part that no hyphen is in is left. -/
theorem deleted_append {w : List Char} (hw : '-' ∉ w) (prev : Option Char) (rest : List Char) :
    pdfHyphenLinebreak.deleted prev (w ++ rest) =
      w ++ pdfHyphenLinebreak.deleted (before prev w) rest := by
  induction w generalizing prev with
  | nil => rw [List.nil_append, List.nil_append, Substitution.before_nil]
  | cons c w ih =>
    have hc : c ≠ '-' := fun h => hw (h ▸ List.mem_cons_self)
    have hfind : pdfHyphenLinebreak.find prev (c :: (w ++ rest)) = none :=
      find_eq_none fun more heq => hc (List.cons.inj heq).1
    rw [List.cons_append, Matcher.deleted_of_none hfind,
      ih fun hin => hw (List.mem_cons_of_mem _ hin), Substitution.before_cons, List.cons_append]

end pdfHyphenLinebreak

/-- The text behind the first pass. -/
def unwrapped (text : List Char) : List Char := pdfHyphenLinebreak.sub [] text

/-- Characters that are no letters between two characters. -/
theorem isChain_of_forall {c d : Char} {w : List Char} (hw : ∀ e ∈ w, e.isLower = false)
    (hne : w = [] → ¬ (c.isLower = true ∧ d.isLower = true)) :
    (c :: (w ++ [d])).IsChain fun c d => ¬ (c.isLower = true ∧ d.isLower = true) := by
  induction w generalizing c with
  | nil => simpa using hne rfl
  | cons e w ih =>
    have he := hw e List.mem_cons_self
    rw [List.cons_append, List.isChain_cons_cons]
    refine ⟨fun h => ?_, ih (fun f hf => hw f (List.mem_cons_of_mem _ hf)) fun _ h => ?_⟩
    · rw [he] at h
      cases h.2
    · rw [he] at h
      cases h.1

theorem InlineBlank.isLower {blanks : List Char} (h : InlineBlank blanks) {c : Char}
    (hc : c ∈ blanks) : c.isLower = false := by
  cases hlower : c.isLower with
  | false => rfl
  | true =>
    have hspace := (h c hc).1
    rw [isSpace_of_isLower hlower] at hspace
    cases hspace

/-- A wrap that is left was there before, and is one with blanks. -/
theorem wrapsWith_of_unwrapped {blanks text : List Char} (hblanks : InlineBlank blanks)
    (h : WrapsWith blanks (unwrapped text)) : WrapsWith blanks text ∧ blanks ≠ [] := by
  obtain ⟨a, b, ha, hb, front, back, hinfix⟩ := h
  have hleft : pdfHyphenLinebreak.deleted none text =
      front ++ a :: (('-' :: (blanks ++ ['\n']) ++ [b]) ++ back) := by
    rw [← Matcher.sub_nil, ← unwrapped, ← hinfix]
    simp
  obtain ⟨front', rest, rfl, -, hrest⟩ := Matcher.exists_of_deleted_eq hleft
  -- between the two letters there is none, so that nothing has been deleted there
  have hmiddle : ∀ e ∈ '-' :: (blanks ++ ['\n']), e.isLower = false := by
    intro e he
    rcases List.mem_cons.mp he with rfl | he
    · rfl
    · rcases List.mem_append.mp he with he | he
      · exact hblanks.isLower he
      · rw [List.mem_singleton.mp he]
        rfl
  obtain ⟨rest', rfl⟩ := pdfHyphenLinebreak.exists_append_of_deleted hrest
    (isChain_of_forall hmiddle fun hnil => by cases hnil)
  refine ⟨⟨a, b, ha, hb, front', rest', by simp⟩, ?_⟩
  rintro rfl
  -- without blanks the hyphen would have been deleted
  have hrest : pdfHyphenLinebreak.deleted (some a) ('-' :: '\n' :: b :: rest') =
    '-' :: '\n' :: b :: back := hrest
  rw [pdfHyphenLinebreak.deleted_match ha hb] at hrest
  rw [(List.cons.inj hrest).1] at hb
  cases hb

/-- A wrap with blanks is left. -/
theorem wrapsWith_unwrapped {blanks text : List Char} (hblanks : InlineBlank blanks)
    (hne : blanks ≠ []) (h : WrapsWith blanks text) : WrapsWith blanks (unwrapped text) := by
  obtain ⟨a, b, ha, hb, front, back, rfl⟩ := h
  obtain ⟨d, blanks', rfl⟩ := List.exists_cons_of_ne_nil hne
  have hbehind : '-' ∉ d :: blanks' ++ ['\n', b] := by
    intro hmem
    rcases List.mem_append.mp hmem with hmem | hmem
    · exact absurd (hblanks _ hmem).1 (by decide)
    · rcases List.mem_pair.mp hmem with heq | rfl
      · cases heq
      · cases hb
  have ha' : '-' ∉ [a] := by
    intro hmem
    rw [← List.mem_singleton.mp hmem] at ha
    cases ha
  -- the hyphen is not before a line break, and the part is left as it is
  have hkept : ∀ prev, pdfHyphenLinebreak.deleted prev
      (a :: '-' :: (d :: blanks' ++ ['\n', b] ++ back)) =
        a :: '-' :: (d :: blanks' ++ ['\n', b] ++
          pdfHyphenLinebreak.deleted (before (some '-') (d :: blanks' ++ ['\n', b])) back) := by
    intro prev
    have hfind : pdfHyphenLinebreak.find (some a) ('-' :: (d :: blanks' ++ ['\n', b] ++ back)) =
        none := by
      apply pdfHyphenLinebreak.find_eq_none
      intro rest heq
      exact (hblanks d List.mem_cons_self).2 (List.cons.inj (List.cons.inj heq).2).1
    have hfirst := pdfHyphenLinebreak.deleted_append ha' prev
      ('-' :: (d :: blanks' ++ ['\n', b] ++ back))
    rw [List.singleton_append, Substitution.before_cons, Substitution.before_nil,
      Matcher.deleted_of_none hfind, pdfHyphenLinebreak.deleted_append hbehind] at hfirst
    exact hfirst
  -- no match reaches into the part, as it would have to end behind its line break
  have hsuffix : pdfHyphenLinebreak.deleted (before none front)
      (a :: '-' :: (d :: blanks' ++ ['\n', b] ++ back)) <:+
        unwrapped (front ++ (a :: '-' :: (d :: blanks' ++ ['\n', b] ++ back))) := by
    apply Matcher.deleted_suffix rfl
    intro prev s t rest hfind hs ht
    by_contra htne
    -- the position would be that of the line break of a match
    obtain ⟨hlength, -, c, more, hxs, -⟩ := pdfHyphenLinebreak.of_find hfind
    obtain ⟨e, s, rfl⟩ := List.exists_cons_of_ne_nil hs
    obtain ⟨e', t, rfl⟩ := List.exists_cons_of_ne_nil htne
    have hsnil : s = [] := by
      simp only [List.length_append, List.length_cons] at hlength
      exact List.length_eq_zero_iff.mp (by omega)
    subst hsnil
    simp only [List.cons_append, List.nil_append] at hxs ht
    have hnewline : e' = '\n' := (List.cons.inj (List.cons.inj hxs).2).1
    rw [← (List.cons.inj ht).1, hnewline] at ha
    cases ha
  rw [hkept] at hsuffix
  have htext : front ++ ((a :: '-' :: (d :: blanks')) ++ '\n' :: [b]) ++ back =
      front ++ (a :: '-' :: (d :: blanks' ++ ['\n', b] ++ back)) := by simp
  rw [htext]
  refine ⟨a, b, ha, hb, List.IsInfix.trans ?_ hsuffix.isInfix⟩
  exact ⟨[], pdfHyphenLinebreak.deleted (before (some '-') (d :: blanks' ++ ['\n', b])) back,
    by simp⟩

/-! ## One line -/

theorem exists_append_rstrip (text : List Char) :
    ∃ after, text = PyStr.rstrip text ++ after ∧ PyStr.Blank after := by
  obtain ⟨before, hbefore, hblank⟩ := PyStr.exists_append_lstrip text.reverse
  refine ⟨before.reverse, ?_, fun c hc => hblank c (List.mem_reverse.mp hc)⟩
  rw [PyStr.rstrip, ← List.reverse_append, ← hbefore, List.reverse_reverse]

theorem isSpace_getLast_rstrip {text : List Char} {c : Char}
    (h : c ∈ (PyStr.rstrip text).getLast?) : PyStr.isSpace c = false := by
  rw [PyStr.rstrip, List.getLast?_reverse] at h
  obtain ⟨rest, hrest⟩ := List.head?_eq_some_iff.mp h
  exact PyStr.isSpace_head_lstrip hrest

/-- `rstrip` takes off the blanks behind the last character that is none. -/
theorem rstrip_append_cons {c : Char} (hc : PyStr.isSpace c = false) (front : List Char)
    {after : List Char} (hafter : PyStr.Blank after) :
    PyStr.rstrip (front ++ c :: after) = front ++ [c] := by
  have hrev : (front ++ c :: after).reverse = after.reverse ++ (c :: front.reverse) := by simp
  have hblank : PyStr.Blank after.reverse := fun d hd => hafter d (List.mem_reverse.mp hd)
  rw [PyStr.rstrip, hrev, PyStr.lstrip_append_of_blank hblank, PyStr.lstrip_cons_of_not_space hc,
    List.reverse_cons, List.reverse_reverse]

theorem rstrip_rstrip (text : List Char) :
    PyStr.rstrip (PyStr.rstrip text) = PyStr.rstrip text := by
  rcases List.eq_nil_or_concat' (PyStr.rstrip text) with hnil | ⟨front, c, hfront⟩
  · rw [hnil]
    rfl
  · have hc : PyStr.isSpace c = false := by
      have hlast : c ∈ (PyStr.rstrip text).getLast? := by
        rw [hfront, List.getLast?_concat]
        rfl
      exact isSpace_getLast_rstrip hlast
    rw [hfront, rstrip_append_cons hc front PyStr.blank_nil]

/-- A character is whitespace within a line. -/
def isInlineBlank (c : Char) : Bool := PyStr.isSpace c && c != '\n'

theorem blank_iff_filter {text : List Char} :
    PyStr.Blank text ↔ text.filter (fun c => !PyStr.isSpace c) = [] := by
  rw [List.filter_eq_nil_iff]
  simp [PyStr.Blank]

theorem blank_collapse {line : List Char} :
    PyStr.Blank (collapse isHorizontal ' ' line) ↔ PyStr.Blank line := by
  rw [blank_iff_filter, blank_iff_filter, CollapsedRuns.filter_collapse (fun c hc => ?_) rfl]
  rw [(isSpace_of_isHorizontal hc).1]
  rfl

/-- What is left of a line is the start of the collapsed line, with whitespace behind it. -/
theorem exists_append_normalizePdfLine (line : List Char) :
    ∃ after, collapse isHorizontal ' ' line = normalizePdfLine line ++ after ∧
      PyStr.Blank after := exists_append_rstrip _

theorem newline_notMem_collapse {line : List Char} (h : '\n' ∉ line) :
    '\n' ∉ collapse isHorizontal ' ' line := by
  intro hmem
  -- only blanks and tabs go, and only a blank comes in
  have hkept : '\n' ∈ (collapse isHorizontal ' ' line).filter fun c => !isHorizontal c :=
    List.mem_filter.mpr ⟨hmem, by decide⟩
  rw [CollapsedRuns.filter_collapse (fun c hc => by rw [hc]; rfl) rfl] at hkept
  exact h (List.mem_filter.mp hkept).1

theorem newline_notMem_normalizePdfLine {line : List Char} (h : '\n' ∉ line) :
    '\n' ∉ normalizePdfLine line := by
  obtain ⟨after, hafter, -⟩ := exists_append_normalizePdfLine line
  intro hmem
  apply newline_notMem_collapse h
  rw [hafter]
  exact List.mem_append_left _ hmem

/-- Only whitespace of a line is lost. -/
theorem filter_normalizePdfLine {line : List Char} (h : '\n' ∉ line) :
    (normalizePdfLine line).filter (fun c => !isInlineBlank c) =
      line.filter fun c => !isInlineBlank c := by
  obtain ⟨after, hafter, hblank⟩ := exists_append_normalizePdfLine line
  have hhorizontal : ∀ c, isHorizontal c = true → (!isInlineBlank c) = false := by
    intro c hc
    obtain ⟨hspace, hne⟩ := isSpace_of_isHorizontal hc
    simp [isInlineBlank, hspace, hne]
  have hnone : after.filter (fun c => !isInlineBlank c) = [] := by
    rw [List.filter_eq_nil_iff]
    intro c hc
    have hne : c ≠ '\n' := by
      rintro rfl
      apply newline_notMem_collapse h
      rw [hafter]
      exact List.mem_append_right _ hc
    simp [isInlineBlank, hblank c hc, hne]
  have hfilter := congrArg (List.filter fun c => !isInlineBlank c) hafter
  rw [CollapsedRuns.filter_collapse hhorizontal rfl, List.filter_append, hnone,
    List.append_nil] at hfilter
  exact hfilter.symm

/-- A normalised line is left as it is. -/
theorem normalizePdfLine_normalizePdfLine (line : List Char) :
    normalizePdfLine (normalizePdfLine line) = normalizePdfLine line := by
  obtain ⟨after, hafter, -⟩ := exists_append_rstrip (collapse isHorizontal ' ' line)
  have hpre : normalizePdfLine line <+: collapse isHorizontal ' ' line := ⟨after, hafter.symm⟩
  have hself : collapse isHorizontal ' ' (normalizePdfLine line) = normalizePdfLine line := by
    apply CollapsedRuns.collapse_eq_self
    · intro c hc hblank
      exact CollapsedRuns.eq_of_mem_collapse (hpre.subset hc) hblank
    · intro c d hc hd hin
      exact CollapsedRuns.not_infix_collapse hc hd (hin.trans hpre.isInfix)
  rw [normalizePdfLine, hself, normalizePdfLine, rstrip_rstrip]

/-- A letter and a hyphen end a normalised line if they end the line, but for blanks. -/
theorem hyphen_suffix_normalizePdfLine {a : Char} (ha : a.isLower = true) (line : List Char) :
    [a, '-'] <:+ normalizePdfLine line ↔
      ∃ blanks, PyStr.Blank blanks ∧ a :: '-' :: blanks <:+ line := by
  have ha' := isHorizontal_of_isLower ha
  constructor
  · rintro ⟨front, hfront⟩
    obtain ⟨after, hafter, hblank⟩ := exists_append_rstrip (collapse isHorizontal ' ' line)
    rw [← normalizePdfLine, ← hfront, List.append_assoc] at hafter
    -- neither of the two is in a run, so that both stand in the line itself
    obtain ⟨front', back, rfl, -, hback⟩ := CollapsedRuns.exists_of_collapse_eq rfl ha' hafter
    obtain ⟨middle, blanks, rfl, hmiddle, hblanks⟩ :=
      CollapsedRuns.exists_of_collapse_eq (a := '-') rfl rfl (hback.trans (List.nil_append _).symm)
    rw [CollapsedRuns.collapse_eq_nil_iff.mp hmiddle, List.nil_append]
    refine ⟨blanks, ?_, List.suffix_append _ _⟩
    rw [← blank_collapse, hblanks]
    exact hblank
  · rintro ⟨blanks, hblanks, front, rfl⟩
    rw [normalizePdfLine, CollapsedRuns.collapse_append_cons ha',
      CollapsedRuns.collapse_cons_of_neg (by rfl)]
    have hcut := rstrip_append_cons (c := '-') rfl (collapse isHorizontal ' ' front ++ [a])
      (blank_collapse.mpr hblanks)
    rw [List.append_assoc, List.append_assoc] at hcut
    exact ⟨collapse isHorizontal ' ' front, hcut.symm⟩

/-- A normalised line begins with a letter if the line does. -/
theorem letter_prefix_normalizePdfLine {b : Char} (hb : b.isLower = true) (line : List Char) :
    [b] <+: normalizePdfLine line ↔ [b] <+: line := by
  obtain ⟨after, hafter, hblank⟩ := exists_append_normalizePdfLine line
  constructor
  · rintro ⟨rest, hrest⟩
    rw [← hrest, List.append_assoc] at hafter
    obtain ⟨front, back, rfl, hfront, -⟩ := CollapsedRuns.exists_of_collapse_eq rfl
      (isHorizontal_of_isLower hb) (hafter.trans (List.nil_append _).symm)
    rw [CollapsedRuns.collapse_eq_nil_iff.mp hfront]
    exact List.prefix_append [b] back
  · rintro ⟨rest, rfl⟩
    rw [List.singleton_append, CollapsedRuns.collapse_cons_of_neg (isHorizontal_of_isLower hb)]
      at hafter
    rw [List.singleton_append]
    cases hline : normalizePdfLine (b :: rest) with
    | nil =>
      -- not all of the line is taken off
      rw [hline, List.nil_append] at hafter
      have hspace := hblank b (by rw [← hafter]; exact List.mem_cons_self)
      rw [isSpace_of_isLower hb] at hspace
      cases hspace
    | cons c line =>
      rw [hline, List.cons_append] at hafter
      rw [(List.cons.inj hafter).1]
      exact List.prefix_append [c] line

/-! ## The page -/

/-- The lines of a normalised page. -/
theorem splitOn_normalizePdfPageText (text : List Char) :
    (normalizePdfPageText text).splitOn '\n' =
      ((unwrapped text).splitOn '\n').map normalizePdfLine := by
  rw [normalizePdfPageText, PyStr.join]
  apply List.splitOn_intercalate
  · intro line hline
    obtain ⟨line, hmem, rfl⟩ := List.mem_map.mp hline
    exact newline_notMem_normalizePdfLine (SplitLines.notMem_of_mem_splitOn hmem)
  · simp [List.splitOn_ne_nil]

/-- A wrap of the normalised page is one that the first pass leaves, with blanks or without. -/
theorem wrapsWith_normalizePdfPageText_iff (text : List Char) :
    WrapsWith [] (normalizePdfPageText text) ↔
      ∃ blanks, InlineBlank blanks ∧ WrapsWith blanks (unwrapped text) := by
  -- a wrap is the end of one line and the start of the next
  have hsplit {a b : Char} (ha : a.isLower = true) (hb : b.isLower = true) (blanks page : List Char)
      (hblanks : '\n' ∉ blanks) : (a :: '-' :: blanks) ++ '\n' :: [b] <:+: page ↔
        ∃ l₁ l₂, [l₁, l₂] <:+: page.splitOn '\n' ∧ a :: '-' :: blanks <:+ l₁ ∧ [b] <+: l₂ := by
    apply SplitLines.cons_infix_iff
    · simp [(ne_newline_of_isLower ha).symm, hblanks]
    · simp [(ne_newline_of_isLower hb).symm]
  constructor
  · rintro ⟨a, b, ha, hb, hinfix⟩
    obtain ⟨l₁, l₂, hlines, hl₁, hl₂⟩ := (hsplit ha hb [] _ (by simp)).mp hinfix
    rw [splitOn_normalizePdfPageText, List.infix_map_iff] at hlines
    obtain ⟨lines, hlines, hmap⟩ := hlines
    obtain ⟨k₁, k₂, rfl⟩ := List.length_eq_two.mp
      (show lines.length = 2 by rw [← List.length_map (f := normalizePdfLine), ← hmap]; rfl)
    simp only [List.map_cons, List.map_nil, List.cons.injEq, and_true] at hmap
    rw [hmap.1, hyphen_suffix_normalizePdfLine ha] at hl₁
    rw [hmap.2, letter_prefix_normalizePdfLine hb] at hl₂
    obtain ⟨blanks, hblank, hk₁⟩ := hl₁
    -- a line has no line break among its blanks
    have hline : '\n' ∉ k₁ := SplitLines.notMem_of_mem_splitOn (hlines.subset List.mem_cons_self)
    have hinline : InlineBlank blanks := by
      intro c hc
      refine ⟨hblank c hc, ?_⟩
      rintro rfl
      exact hline (hk₁.subset (List.mem_cons_of_mem _ (List.mem_cons_of_mem _ hc)))
    refine ⟨blanks, hinline, a, b, ha, hb, ?_⟩
    exact (hsplit ha hb blanks _ fun h => (hinline _ h).2 rfl).mpr ⟨k₁, k₂, hlines, hk₁, hl₂⟩
  · rintro ⟨blanks, hblanks, a, b, ha, hb, hinfix⟩
    obtain ⟨l₁, l₂, hlines, hl₁, hl₂⟩ :=
      (hsplit ha hb blanks _ fun h => (hblanks _ h).2 rfl).mp hinfix
    refine ⟨a, b, ha, hb, (hsplit ha hb [] _ (by simp)).mpr
      ⟨normalizePdfLine l₁, normalizePdfLine l₂, ?_, ?_, ?_⟩⟩
    · rw [splitOn_normalizePdfPageText]
      exact hlines.map normalizePdfLine
    · exact (hyphen_suffix_normalizePdfLine ha l₁).mpr ⟨blanks, fun c hc => (hblanks c hc).1, hl₁⟩
    · exact (letter_prefix_normalizePdfLine hb l₂).mpr hl₂

/-- A page is left with a wrap exactly where it had one with blanks. -/
theorem not_wrapsWith_normalizePdfPageText_iff (text : List Char) :
    ¬ WrapsWith [] (normalizePdfPageText text) ↔
      ∀ blanks, blanks ≠ [] → InlineBlank blanks → ¬ WrapsWith blanks text := by
  rw [wrapsWith_normalizePdfPageText_iff]
  constructor
  · intro hnone blanks hne hblanks hwraps
    exact hnone ⟨blanks, hblanks, wrapsWith_unwrapped hblanks hne hwraps⟩
  · rintro hnone ⟨blanks, hblanks, hleft⟩
    obtain ⟨hwraps, hne⟩ := wrapsWith_of_unwrapped hblanks hleft
    exact hnone blanks hne hblanks hwraps

/-- A text without a wrap is not changed by the first pass. -/
theorem unwrapped_eq_self {text : List Char} (h : ¬ WrapsWith [] text) : unwrapped text = text := by
  -- a match would be a wrap
  have hfree : pdfHyphenLinebreak.Free text := by
    intro front back n hsplit hat
    obtain ⟨-, ⟨a, ha, hlower⟩, b, rest, rfl, hb⟩ := pdfHyphenLinebreak.of_find hat
    rcases List.eq_nil_or_concat' front with rfl | ⟨front, c, rfl⟩
    · cases ha
    · rw [Substitution.before_append, Substitution.before_cons, Substitution.before_nil] at ha
      cases ha
      exact h ⟨a, b, hlower, hb, front, rest, by rw [hsplit]; simp⟩
  exact (hfree.sub []).1

/-- Without a wrap a second call changes nothing. -/
theorem normalizePdfPageText_again {text : List Char}
    (h : ¬ WrapsWith [] (normalizePdfPageText text)) :
    normalizePdfPageText (normalizePdfPageText text) = normalizePdfPageText text := by
  rw [normalizePdfPageText, ← unwrapped, unwrapped_eq_self h, splitOn_normalizePdfPageText,
    List.map_map, normalizePdfPageText, ← unwrapped]
  congr 1
  apply List.map_congr_left
  intro line _
  exact normalizePdfLine_normalizePdfLine line

theorem not_infix_normalizePdfPageText (text : List Char) {c d : Char}
    (hc : isHorizontal c = true) (hd : isHorizontal d = true) :
    ¬ [c, d] <:+: normalizePdfPageText text := by
  intro hin
  have hnewline : '\n' ∉ [c, d] := by
    simp [(isSpace_of_isHorizontal hc).2.symm, (isSpace_of_isHorizontal hd).2.symm]
  obtain ⟨line, hline, hin⟩ := SplitLines.exists_mem_of_infix hnewline hin
  rw [splitOn_normalizePdfPageText] at hline
  obtain ⟨line, -, rfl⟩ := List.mem_map.mp hline
  obtain ⟨after, hafter, -⟩ := exists_append_normalizePdfLine line
  apply CollapsedRuns.not_infix_collapse hc hd (l := line) (b := ' ')
  rw [hafter]
  exact hin.trans (List.prefix_append _ _).isInfix

theorem isSpace_getLast_of_mem_splitOn (text : List Char) :
    ∀ line ∈ (normalizePdfPageText text).splitOn '\n', ∀ c ∈ line.getLast?,
      PyStr.isSpace c = false := by
  intro line hline c hc
  rw [splitOn_normalizePdfPageText] at hline
  obtain ⟨line, -, rfl⟩ := List.mem_map.mp hline
  exact isSpace_getLast_rstrip hc

/-- Only whitespace within the lines is lost by the second pass. -/
theorem filter_normalizePdfPageText (text : List Char) :
    (normalizePdfPageText text).filter (fun c => !isInlineBlank c) =
      (unwrapped text).filter fun c => !isInlineBlank c := by
  have hlines : (((unwrapped text).splitOn '\n').map normalizePdfLine).map
      (List.filter fun c => !isInlineBlank c) =
        ((unwrapped text).splitOn '\n').map (List.filter fun c => !isInlineBlank c) := by
    rw [List.map_map]
    apply List.map_congr_left
    intro line hline
    exact filter_normalizePdfLine (SplitLines.notMem_of_mem_splitOn hline)
  have hjoin (pieces : List (List Char)) :=
    SplitLines.filter_intercalate (p := fun c => !isInlineBlank c)
      (by decide : (!isInlineBlank '\n') = true) pieces
  rw [normalizePdfPageText, ← unwrapped, PyStr.join, hjoin, hlines, ← hjoin,
    List.intercalate_splitOn]

/-- The text is that of the page without some hyphens at line breaks within words, but for
    whitespace within the lines. -/
def KeepsCharacters (text result : List Char) : Prop :=
  ∃ ps : List (Segment Char), originals ps = text ∧
    (∀ front s o back, ps = front ++ Segment.mark s o :: back →
      s = [] ∧ o = ['-', '\n'] ∧ (∃ a ∈ (originals front).getLast?, a.isLower = true) ∧
        ∃ b ∈ (originals back).head?, b.isLower = true) ∧
    result.filter (fun c => !isInlineBlank c) = (shown ps).filter fun c => !isInlineBlank c

theorem keepsCharacters_normalizePdfPageText (text : List Char) :
    KeepsCharacters text (normalizePdfPageText text) := by
  refine ⟨pdfHyphenLinebreak.scan (fun _ => []) 0 none text, Matcher.originals_scan _ _ _ _, ?_,
    filter_normalizePdfPageText text⟩
  intro front s o back hscan
  obtain ⟨hfind, hs, -⟩ := pdfHyphenLinebreak.finds_of_scan _ hscan
  obtain ⟨hlength, ⟨a, ha, hlower⟩, b, rest, hxs, hb⟩ := pdfHyphenLinebreak.of_find hfind
  rw [Substitution.originals_cons, Segment.original] at hxs
  have ho : o = ['-', '\n'] ∧ originals back = b :: rest :=
    List.append_inj (hxs.trans (by rfl : _ = ['-', '\n'] ++ b :: rest)) hlength
  refine ⟨hs, ho.1, ⟨a, ?_, hlower⟩, b, by rw [ho.2]; rfl, hb⟩
  rw [before, Option.or_none] at ha
  exact ha

/-- What a page is to be when it is normalised. -/
structure NormalizedPage (text result : List Char) : Prop where
  /-- No word is wrapped with a hyphen. -/
  noWrap : ¬ WrapsWith [] result
  /-- No two blanks or tabs stand side by side. -/
  noRun : ∀ c d, isHorizontal c = true → isHorizontal d = true → ¬ [c, d] <:+: result
  /-- No line ends with whitespace. -/
  noTrailing : ∀ line ∈ result.splitOn '\n', ∀ c ∈ line.getLast?, PyStr.isSpace c = false
  /-- A second call changes nothing. -/
  again : normalizePdfPageText result = result
  kept : KeepsCharacters text result

/-- For every page, `_normalize_pdf_page_text` is complete exactly when nowhere in the page a lower
    case letter and a hyphen are followed by whitespace, a line break and a lower case letter. -/
theorem normalizedPage_iff (text : List Char) :
    NormalizedPage text (normalizePdfPageText text) ↔
      ∀ blanks, blanks ≠ [] → InlineBlank blanks → ¬ WrapsWith blanks text := by
  rw [← not_wrapsWith_normalizePdfPageText_iff]
  constructor
  · intro h
    exact h.noWrap
  · intro h
    exact {
      noWrap := h
      noRun := fun c d hc hd => not_infix_normalizePdfPageText text hc hd
      noTrailing := isSpace_getLast_of_mem_splitOn text
      again := normalizePdfPageText_again h
      kept := keepsCharacters_normalizePdfPageText text }

/-- A blank behind the hyphen is enough, and a second call goes on. -/
theorem not_normalizedPage :
    ¬ ∀ text, NormalizedPage text (normalizePdfPageText text) := by
  intro hall
  have hagain := (hall "informa- \ntion".toList).again
  exact absurd hagain (by decide)

end Inherent
