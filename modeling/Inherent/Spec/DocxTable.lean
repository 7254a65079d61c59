import Inherent.Native.ExtractedText

/-!
# Reading a printed table

A reader of a Markdown table cuts a line at the pipes that have no backslash before them and
takes the escapes off.  `readsBack_table` says that it finds the cells of every row, with newlines
as spaces and without outer whitespace: a cell that ends in a backslash is kept apart by the space
before the next pipe, and a pipe always has a backslash of its own.
-/

namespace Inherent

/-! ## The reader -/

/-- The pieces between the pipes that have no backslash before them; the flag tells whether the
    text before has one at its end. -/
def splitPipes : Bool → List Char → List (List Char)
  | _, [] => [[]]
  | escaped, c :: rest =>
    if c = '|' ∧ escaped = false then [] :: splitPipes false rest
    else (splitPipes (c == '\\') rest).modifyHead (c :: ·)

/-- Pipes without their backslashes. -/
def unescapePipes : List Char → List Char
  | [] => []
  | [c] => [c]
  | c :: d :: rest =>
    if c = '\\' ∧ d = '|' then '|' :: unescapePipes rest else c :: unescapePipes (d :: rest)

/-- The cells of a line: the pieces between its outer pipes. -/
def readMarkdownRow (line : List Char) : List (List Char) :=
  ((splitPipes false line).drop 1).dropLast.map fun piece => PyStr.strip (unescapePipes piece)

/-- A text with its newlines as spaces and without outer whitespace. -/
def normalizedCell (text : List Char) : List Char :=
  PyStr.strip (PyStr.replaceChar '\n' [' '] text)

/-- What is read from the line of a row; a line without cells reads as one empty cell. -/
def expectedCells (row : List (List Char)) : List (List Char) :=
  if row = [] then [[]] else row.map normalizedCell

/-! ## Escaped texts -/

/-- A text with a backslash before every pipe. -/
def escapePipes (text : List Char) : List Char := PyStr.replaceChar '|' ['\\', '|'] text

theorem escapePipes_cons (c : Char) (text : List Char) :
    escapePipes (c :: text) = (if c = '|' then ['\\', '|'] else [c]) ++ escapePipes text := by
  rw [escapePipes, PyStr.replaceChar, List.flatMap_cons]
  rfl

theorem escapePipes_append (a b : List Char) :
    escapePipes (a ++ b) = escapePipes a ++ escapePipes b := List.flatMap_append

theorem escapePipes_of_blank {text : List Char} (h : PyStr.Blank text) :
    escapePipes text = text := by
  induction text with
  | nil => rfl
  | cons c text ih =>
    have hc : c ≠ '|' := by
      rintro rfl
      exact absurd (h '|' List.mem_cons_self) (by decide)
    rw [escapePipes_cons, if_neg hc, ih fun d hd => h d (List.mem_cons_of_mem _ hd)]
    rfl

/-- No escaped text begins with a pipe. -/
theorem head_escapePipes (text : List Char) {rest : List Char} (h : rest.head? ≠ some '|') :
    (escapePipes text ++ rest).head? ≠ some '|' := by
  cases text with
  | nil => exact h
  | cons c text =>
    rw [escapePipes_cons]
    split
    · simp
    · next hc => simpa using hc

/-- The whitespace around a text is not escaped. -/
theorem strip_escapePipes (text : List Char) :
    PyStr.strip (escapePipes text) = escapePipes (PyStr.strip text) := by
  have hends : PyStr.strip (escapePipes (PyStr.strip text)) = escapePipes (PyStr.strip text) := by
    apply PyStr.strip_of_ends
    · intro d hd
      cases hstrip : PyStr.strip text with
      | nil => simp [hstrip, escapePipes, PyStr.replaceChar] at hd
      | cons c rest =>
        rw [hstrip, escapePipes_cons] at hd
        split at hd
        · obtain rfl : '\\' = d := by simpa using hd
          decide
        · obtain rfl : c = d := by simpa using hd
          exact PyStr.isSpace_head_strip hstrip
    · intro d hd
      rcases List.eq_nil_or_concat (PyStr.strip text) with hstrip | ⟨front, c, hstrip⟩
      · simp [hstrip, escapePipes, PyStr.replaceChar] at hd
      · -- the last character is its own last one, escaped or not
        rw [List.concat_eq_append] at hstrip
        rw [hstrip, escapePipes_append, escapePipes_cons] at hd
        obtain rfl : c = d := by
          split at hd
          · next hc => simpa [escapePipes, PyStr.replaceChar, hc] using hd
          · simpa [escapePipes, PyStr.replaceChar] using hd
        exact PyStr.isSpace_getLast_strip hstrip
  -- the whitespace around the text stands around the escaped text
  obtain ⟨before, after, htext, hbefore, hafter⟩ := PyStr.exists_append_strip text
  have hescaped : escapePipes text = before ++ escapePipes (PyStr.strip text) ++ after := by
    conv_lhs => rw [htext]
    rw [escapePipes_append, escapePipes_append, escapePipes_of_blank hbefore,
      escapePipes_of_blank hafter]
  rw [hescaped, PyStr.strip_append_of_blank hafter, PyStr.strip_blank_append hbefore, hends]

/-- A printed cell is its normalised text, escaped. -/
theorem docxEscapeTableCell_eq (text : List Char) :
    docxEscapeTableCell text = escapePipes (normalizedCell text) := by
  rw [docxEscapeTableCell, normalizedCell, ← strip_escapePipes]
  congr 1
  -- both replacements go character by character
  induction text with
  | nil => rfl
  | cons c text ih =>
    have hcons (new : List Char) (old : Char) :
        PyStr.replaceChar old new (c :: text) =
          (if c = old then new else [c]) ++ PyStr.replaceChar old new text := by
      rw [PyStr.replaceChar, List.flatMap_cons]
      rfl
    have happend (a b : List Char) : PyStr.replaceChar '\n' [' '] (a ++ b) =
        PyStr.replaceChar '\n' [' '] a ++ PyStr.replaceChar '\n' [' '] b := List.flatMap_append
    rw [hcons, hcons, happend, ih, escapePipes_append]
    congr 1
    by_cases hpipe : c = '|'
    · subst hpipe
      rfl
    · by_cases hnewline : c = '\n'
      · subst hnewline
        rfl
      · simp [hpipe, hnewline, PyStr.replaceChar, escapePipes]

theorem newline_notMem_docxEscapeTableCell (text : List Char) :
    '\n' ∉ docxEscapeTableCell text := by
  intro hmem
  obtain ⟨before, after, htext, -, -⟩ := PyStr.exists_append_strip
    (PyStr.replaceChar '\n' [' '] (PyStr.replaceChar '|' ['\\', '|'] text))
  have hreplaced :
      '\n' ∈ PyStr.replaceChar '\n' [' '] (PyStr.replaceChar '|' ['\\', '|'] text) := by
    rw [htext]
    exact List.mem_append_left _ (List.mem_append_right _ hmem)
  -- every newline has been replaced by a space
  obtain ⟨c, -, hc⟩ := List.mem_flatMap.mp hreplaced
  split at hc
  · simp at hc
  · next hne => exact hne (List.mem_singleton.mp hc).symm

/-! ## Reading the line of a row -/

/-- A piece ends at the delimiter behind an escaped text and a space, and at no pipe before. -/
theorem splitPipes_escapePipes (escaped : Bool) (text rest : List Char) :
    splitPipes escaped (escapePipes text ++ ' ' :: '|' :: rest) =
      (escapePipes text ++ [' ']) :: splitPipes false rest := by
  induction text generalizing escaped with
  | nil => simp [escapePipes, PyStr.replaceChar, splitPipes]
  | cons c text ih =>
    rw [escapePipes_cons]
    by_cases hc : c = '|'
    · rw [if_pos hc]
      simp [splitPipes, ih]
    · rw [if_neg hc]
      simp [splitPipes, hc, ih]

theorem unescapePipes_cons {c : Char} {rest : List Char} (h : c ≠ '\\' ∨ rest.head? ≠ some '|') :
    unescapePipes (c :: rest) = c :: unescapePipes rest := by
  cases rest with
  | nil => rfl
  | cons d rest =>
    rw [unescapePipes, if_neg]
    rintro ⟨rfl, rfl⟩
    simp at h

/-- The escapes come off again. -/
theorem unescapePipes_escapePipes (text : List Char) {rest : List Char}
    (h : rest.head? ≠ some '|') :
    unescapePipes (escapePipes text ++ rest) = text ++ unescapePipes rest := by
  induction text with
  | nil => rfl
  | cons c text ih =>
    rw [escapePipes_cons]
    by_cases hc : c = '|'
    · subst hc
      simp [unescapePipes, ih]
    · -- a backslash of the text has no bare pipe behind it
      rw [if_neg hc, List.append_assoc, List.singleton_append,
        unescapePipes_cons (.inr (head_escapePipes text h)), ih, List.cons_append]

/-- The line of a row with a cell: every cell stands between a pipe and the next one. -/
theorem markdownRow_eq {cells : List (List Char)} (hne : cells ≠ []) :
    markdownRow cells = '|' :: cells.flatMap fun cell => ' ' :: (cell ++ [' ', '|']) := by
  have hjoin : ∀ cells : List (List Char), cells ≠ [] →
      ' ' :: (PyStr.join " | ".toList cells ++ [' ', '|']) =
        cells.flatMap fun cell => ' ' :: (cell ++ [' ', '|']) := by
    intro cells hne
    induction cells with
    | nil => exact absurd rfl hne
    | cons cell cells ih =>
      cases cells with
      | nil => simp
      | cons next cells =>
        rw [List.flatMap_cons, ← ih (by simp), PyStr.join_cons_cons]
        simp
  rw [← hjoin cells hne]
  simp [markdownRow]

/-- The pieces between the outer pipes of a line are the escaped cells with a space on both
    sides. -/
theorem splitPipes_cells (cells : List (List Char)) :
    splitPipes false (cells.flatMap fun cell => ' ' :: (escapePipes cell ++ [' ', '|'])) =
      cells.map (fun cell => ' ' :: (escapePipes cell ++ [' '])) ++ [[]] := by
  induction cells with
  | nil => rfl
  | cons cell cells ih =>
    rw [List.flatMap_cons, List.cons_append, List.append_assoc]
    simp [splitPipes, splitPipes_escapePipes, ih]

/-- The cells are read back from the line of their row. -/
theorem readMarkdownRow_markdownRow (row : List (List Char)) :
    readMarkdownRow (markdownRow (row.map docxEscapeTableCell)) = expectedCells row := by
  by_cases hrow : row = []
  · subst hrow
    decide
  · rw [expectedCells, if_neg hrow, markdownRow_eq (by simpa using hrow), List.flatMap_map,
      readMarkdownRow, splitPipes, if_pos ⟨rfl, rfl⟩]
    simp only [docxEscapeTableCell_eq]
    -- the outer pipes leave an empty piece at both ends, which are dropped
    have hcells := splitPipes_cells (row.map normalizedCell)
    rw [List.flatMap_map] at hcells
    rw [hcells, List.drop_succ_cons, List.drop_zero, List.dropLast_concat, List.map_map,
      List.map_map]
    apply List.map_congr_left
    intro text _
    have hunescape : unescapePipes (' ' :: (escapePipes (normalizedCell text) ++ [' '])) =
        [' '] ++ normalizedCell text ++ [' '] := by
      rw [unescapePipes_cons (.inl (by decide)), unescapePipes_escapePipes _ (by simp)]
      rfl
    have hspace : PyStr.Blank [' '] := by simp [PyStr.Blank, PyStr.isSpace]
    rw [Function.comp_apply, Function.comp_apply, hunescape, PyStr.strip_append_of_blank hspace,
      PyStr.strip_blank_append hspace]
    exact PyStr.strip_strip _

theorem newline_notMem_markdownRow {cells : List (List Char)} (h : ∀ cell ∈ cells, '\n' ∉ cell) :
    '\n' ∉ markdownRow cells := by
  by_cases hne : cells = []
  · subst hne
    decide
  · rw [markdownRow_eq hne]
    intro hmem
    rcases List.mem_cons.mp hmem with hpipe | hmem
    · exact absurd hpipe (by decide)
    · obtain ⟨cell, hcell, hmem⟩ := List.mem_flatMap.mp hmem
      simp [h cell hcell] at hmem

/-! ## Printed tables -/

/-- The lines of a printed table. -/
def tableLines (table : List (List (List Char))) : List (List Char) :=
  (docxTableToMarkdown table).splitOn '\n'

/-- There is one line for every row and a separator line as the second one, and a reader finds in
    the line of a row the cells that are asked for. -/
structure ReadsBack (cells : List (List Char) → List (List Char))
    (table : List (List (List Char))) : Prop where
  length : (tableLines table).length = table.length + 1
  separator : ∃ dashes, (tableLines table)[1]? = some (markdownRow dashes) ∧
    ∀ cell ∈ dashes, cell = "---".toList
  rows : ((tableLines table).eraseIdx 1).map readMarkdownRow = table.map cells

theorem tableLines_cons (header : List (List Char)) (rows : List (List (List Char))) :
    tableLines (header :: rows) = markdownRow (header.map docxEscapeTableCell) ::
      markdownRow (header.map fun _ => "---".toList) ::
      rows.map fun row => markdownRow (row.map docxEscapeTableCell) := by
  have hrow (row : List (List Char)) : '\n' ∉ markdownRow (row.map docxEscapeTableCell) := by
    apply newline_notMem_markdownRow
    intro cell hcell
    obtain ⟨text, -, rfl⟩ := List.mem_map.mp hcell
    exact newline_notMem_docxEscapeTableCell text
  have hdashes : '\n' ∉ markdownRow (header.map fun _ => "---".toList) := by
    apply newline_notMem_markdownRow
    intro cell hcell
    obtain ⟨text, -, rfl⟩ := List.mem_map.mp hcell
    decide
  -- no line has a newline in it, so the joined lines split again
  rw [tableLines, docxTableToMarkdown, PyStr.join]
  apply List.splitOn_intercalate
  · intro line hline
    rcases List.mem_cons.mp hline with rfl | hline
    · exact hrow header
    rcases List.mem_cons.mp hline with rfl | hline
    · exact hdashes
    · obtain ⟨row, -, rfl⟩ := List.mem_map.mp hline
      exact hrow row
  · simp

/-- A table without rows prints as nothing; in every other one a reader finds the cells of every
    row, where a row without cells reads as one empty cell. -/
theorem readsBack_table (table : List (List (List Char))) :
    if table = [] then docxTableToMarkdown table = [] else ReadsBack expectedCells table := by
  cases table with
  | nil => simp [docxTableToMarkdown]
  | cons header rows =>
    rw [if_neg (by simp)]
    refine ⟨?_, ?_, ?_⟩
    · simp [tableLines_cons]
    · refine ⟨header.map fun _ => "---".toList, by simp [tableLines_cons], ?_⟩
      intro cell hcell
      obtain ⟨text, -, rfl⟩ := List.mem_map.mp hcell
      rfl
    · rw [tableLines_cons, List.eraseIdx_cons_succ, List.eraseIdx_cons_zero, List.map_cons,
        List.map_cons, readMarkdownRow_markdownRow, List.map_map]
      congr 1
      exact List.map_congr_left fun row _ => readMarkdownRow_markdownRow row

/-- A row without cells prints as a line with one. -/
theorem not_readsBack_noCells : ¬ ReadsBack (fun row => row.map normalizedCell) [[]] := by
  intro h
  have hrows : ((tableLines [[]]).eraseIdx 1).map readMarkdownRow = [[]] := h.rows
  rw [tableLines_cons] at hrows
  exact absurd hrows (by decide)

end Inherent
