import Inherent.ForStd.SeparatedJoin
import Inherent.Native.XlsxText
import Inherent.Spec.LineBlocks

/-!
# The rows of a workbook

`extractXlsxText_eq`: the text of a workbook is its sheets, each with its heading and one line
for every row that is not blank; after every fifty lines the heading and the header row come
again.  `rowsStayRows`: where no cell has a line end, a separator or the beginning of a heading
in it, the row chunker sees these lines, and each of them gives its cells back.
-/

namespace Inherent

/-! ## The lines of a sheet -/

section

variable (columnLetter : Nat → List Char) (anchors : List (List Char × List Char))
  (sheet : XlsxSheet)

/-- The cells of the rows that are not blank. -/
def rowsFrom (rowNumber : Nat) (rows : List (List CellValue)) : List (List (List Char)) :=
  (rows.zipIdx rowNumber).filterMap fun p =>
    if isBlankRow p.1 = true then none
    else some (renderedCells columnLetter anchors sheet.firstColumn p.2 p.1)

/-- The cells of the rows of the sheet that are not blank. -/
def sheetRows : List (List (List Char)) :=
  rowsFrom columnLetter anchors sheet sheet.firstRow sheet.rows

/-- The lines of rows: behind every fifty of them the heading and the first line again. -/
def sheetBody (title : List Char) (lines : List (List Char)) : List (List Char) :=
  lines.zipIdx.flatMap fun p =>
    if 0 < p.2 ∧ p.2 % 50 = 0 then [xlsxContinuedHeading title, lines.headD [], p.1] else [p.1]

/-- The lines of the sheet. -/
def sheetLines : List (List Char) :=
  xlsxHeading sheet.title ::
    sheetBody sheet.title ((sheetRows columnLetter anchors sheet).map rowLine)

/-- The state of the loop behind `rows`. -/
structure XlsxRead (totals : XlsxTotals) (rows : List (List CellValue)) (s : XlsxState) : Prop where
  sheetLines : s.sheetLines = xlsxHeading sheet.title :: sheetBody sheet.title
    ((rowsFrom columnLetter anchors sheet sheet.firstRow rows).map rowLine)
  headerLine : s.headerLine =
    ((rowsFrom columnLetter anchors sheet sheet.firstRow rows).map rowLine).head?
  rowsSinceHeading : s.rowsSinceHeading =
    if rowsFrom columnLetter anchors sheet sheet.firstRow rows = [] then 0
    else ((rowsFrom columnLetter anchors sheet sheet.firstRow rows).length - 1) % 50 + 1
  rowNumber : s.rowNumber = sheet.firstRow + rows.length
  anyData : s.totals.anyData = true ↔
    totals.anyData = true ∨ rowsFrom columnLetter anchors sheet sheet.firstRow rows ≠ []

variable {columnLetter anchors sheet}

theorem rowsFrom_concat (rowNumber : Nat) (rows : List (List CellValue)) (row : List CellValue) :
    rowsFrom columnLetter anchors sheet rowNumber (rows ++ [row]) =
      rowsFrom columnLetter anchors sheet rowNumber rows ++
        if isBlankRow row = true then []
        else [renderedCells columnLetter anchors sheet.firstColumn (rowNumber + rows.length) row] := by
  rw [rowsFrom, List.zipIdx_append, List.filterMap_append]
  cases hrow : isBlankRow row <;> simp [rowsFrom, hrow]

/-- A line behind others is put out, behind the heading and the first line where they are due. -/
theorem sheetBody_concat (title : List Char) (lines : List (List Char)) (line : List Char) :
    sheetBody title (lines ++ [line]) =
      sheetBody title lines ++
        if lines ≠ [] ∧ lines.length % 50 = 0 then
          [xlsxContinuedHeading title, lines.headD [], line]
        else [line] := by
  cases lines with
  | nil => rfl
  | cons first lines =>
    have hzip : (first :: lines ++ [line]).zipIdx =
        (first :: lines).zipIdx ++ [(line, (first :: lines).length)] := by
      simp [List.zipIdx_append, Nat.add_comm]
    have hhead : (first :: lines ++ [line]).headD [] = (first :: lines).headD [] := rfl
    rw [sheetBody, hzip, hhead, List.flatMap_append]
    simp [sheetBody]

/-- A row that is not blank puts out its line. -/
theorem XlsxRead.addLine {totals : XlsxTotals} {rows : List (List CellValue)} {s : XlsxState}
    (h : XlsxRead columnLetter anchors sheet totals rows s) {row : List CellValue}
    (hrow : isBlankRow row = false) (cells : Nat) :
    XlsxRead columnLetter anchors sheet totals (rows ++ [row])
      (({ s with totals := { s.totals with cells := cells } } : XlsxState).addLine sheet
        (rowLine (renderedCells columnLetter anchors sheet.firstColumn s.rowNumber row))) := by
  obtain ⟨hlines, hheader, hsince, hnumber, hdata⟩ := h
  have hrows := @rowsFrom_concat columnLetter anchors sheet sheet.firstRow rows row
  rw [if_neg (by simp [hrow]), ← hnumber] at hrows
  generalize renderedCells columnLetter anchors sheet.firstColumn s.rowNumber row = new at hrows ⊢
  generalize rowsFrom columnLetter anchors sheet sheet.firstRow rows = read at *
  have hbody := sheetBody_concat sheet.title (read.map rowLine) (rowLine new)
  have hnext : s.rowNumber + 1 = sheet.firstRow + (rows ++ [row]).length := by
    rw [hnumber, List.length_append, List.length_singleton, Nat.add_assoc]
  unfold XlsxState.addLine
  cases read with
  | nil =>
    -- the first line is the header row
    have hnone : s.headerLine = none := hheader
    simp only [hnone]
    refine ⟨?_, ?_, ?_, hnext, ?_⟩
    · rw [hrows, hlines, List.map_append, List.map_singleton, hbody]
      rfl
    · rw [hrows]
      rfl
    · rw [hrows, hsince]
      rfl
    · simp [hrows]
  | cons first read =>
    have hsome : s.headerLine = some (rowLine first) := hheader
    have hlen : ((first :: read).map rowLine).length = read.length + 1 := by simp
    rw [if_neg (by simp), List.length_cons, Nat.add_sub_cancel] at hsince
    simp only [hsome, xlsxHeaderRepeatRows]
    split
    · next hdue =>
      -- fifty lines since the heading: it comes again, with the header row
      have hcond : (first :: read).map rowLine ≠ [] ∧
          ((first :: read).map rowLine).length % 50 = 0 := ⟨by simp, by omega⟩
      rw [if_pos hcond] at hbody
      refine ⟨?_, ?_, ?_, hnext, ?_⟩
      · rw [hrows, hlines, List.map_append, List.map_singleton, hbody]
        rfl
      · rw [hrows]
        rfl
      · rw [hrows, if_neg (by simp)]
        simp only [List.length_append, List.length_cons, List.length_nil]
        omega
      · simp [hrows]
    · next hdue =>
      -- no heading is due
      have hcond : ¬ ((first :: read).map rowLine ≠ [] ∧
          ((first :: read).map rowLine).length % 50 = 0) := fun hc => by
        have := hc.2
        omega
      rw [if_neg hcond] at hbody
      refine ⟨?_, ?_, ?_, hnext, ?_⟩
      · rw [hrows, hlines, List.map_append, List.map_singleton, hbody]
        rfl
      · rw [hrows]
        rfl
      · rw [hrows, if_neg (by simp)]
        simp only [List.length_append, List.length_cons, List.length_nil, hsince]
        omega
      · simp [hrows]

/-- One round of the loop. -/
theorem XlsxRead.step {totals : XlsxTotals} {rows : List (List CellValue)} {s s' : XlsxState}
    (h : XlsxRead columnLetter anchors sheet totals rows s) {row : List CellValue}
    (hrow : xlsxRow columnLetter anchors sheet s row = .ok s') :
    XlsxRead columnLetter anchors sheet totals (rows ++ [row]) s' := by
  simp only [xlsxRow] at hrow
  split at hrow
  · cases hrow
  · split at hrow
    · next hblank =>
      cases hrow
      -- a blank row moves the row number on, and nothing else
      have hrows := @rowsFrom_concat columnLetter anchors sheet sheet.firstRow rows row
      rw [if_pos hblank, List.append_nil] at hrows
      refine ⟨?_, ?_, ?_, ?_, ?_⟩
      · rw [hrows]
        exact h.sheetLines
      · rw [hrows]
        exact h.headerLine
      · rw [hrows]
        exact h.rowsSinceHeading
      · simp [h.rowNumber, Nat.add_assoc]
      · rw [hrows]
        exact h.anyData
    · next hblank =>
      split at hrow
      · cases hrow
      · cases hrow
        exact h.addLine (by simpa using hblank) _

/-- The loop over the rows. -/
theorem xlsxRead_of_rows {totals : XlsxTotals} {rows : List (List CellValue)} {s : XlsxState}
    (h : xlsxRows columnLetter anchors sheet totals rows = .ok s) :
    XlsxRead columnLetter anchors sheet totals rows s := by
  induction rows using List.reverseRecOn generalizing s with
  | nil =>
    cases h
    exact ⟨rfl, rfl, rfl, rfl, by simp [xlsxStart, rowsFrom]⟩
  | append_singleton rows row ih =>
    rw [xlsxRows, List.foldlM_append] at h
    cases hbefore : rows.foldlM (xlsxRow columnLetter anchors sheet) (xlsxStart sheet totals) with
    | error e =>
      rw [hbefore] at h
      cases h
    | ok before =>
      rw [hbefore] at h
      cases hrow : xlsxRow columnLetter anchors sheet before row with
      | error e => simp [hrow, bind, Except.bind] at h
      | ok after =>
        have hafter : after = s := by simpa [hrow, bind, Except.bind, pure, Except.pure] using h
        exact hafter ▸ (ih hbefore).step hrow

/-! ## The text of a workbook -/

variable {anchorsOf : XlsxSheet → List (List Char × List Char)}

/-- The loop over the sheets. -/
theorem xlsxSheets_eq {sheets : List XlsxSheet} {totals totals' : XlsxTotals}
    {parts : List (List Char)}
    (h : xlsxSheets columnLetter anchorsOf totals sheets = .ok (parts, totals')) :
    parts = sheets.map (fun sheet =>
        PyStr.join ['\n'] (sheetLines columnLetter (anchorsOf sheet) sheet)) ∧
      (totals'.anyData = true ↔ totals.anyData = true ∨
        ∃ sheet ∈ sheets, sheetRows columnLetter (anchorsOf sheet) sheet ≠ []) := by
  induction sheets generalizing totals parts with
  | nil =>
    cases h
    simp
  | cons sheet sheets ih =>
    simp only [xlsxSheets, bind, Except.bind] at h
    split at h
    · cases h
    · next s hrows =>
      split at h
      · cases h
      · next rest hrest =>
        cases h
        obtain ⟨hparts, hdata⟩ := ih hrest
        have hread := xlsxRead_of_rows hrows
        refine ⟨?_, ?_⟩
        · rw [List.map_cons, hparts, hread.sheetLines]
          rfl
        · rw [hdata, hread.anyData, List.exists_mem_cons_iff, or_assoc]
          rfl

end

section

variable (reader : XlsxReader) (content : List UInt8)

/-- The rows of a sheet of the workbook that are not blank. -/
def XlsxReader.rowsOf (sheet : XlsxSheet) : List (List (List Char)) :=
  sheetRows reader.columnLetter (xlsxMergeAnchors reader content sheet.worksheetPath) sheet

/-- The lines of a sheet of the workbook. -/
def XlsxReader.linesOf (sheet : XlsxSheet) : List (List Char) :=
  sheetLines reader.columnLetter (xlsxMergeAnchors reader content sheet.worksheetPath) sheet

/-- The text of a workbook is that of its sheets, if it has a row. -/
theorem extractXlsxText_eq {text : List Char} (h : extractXlsxText reader content = .ok text) :
    ∃ sheets, reader.loadWorkbook content = .ok sheets ∧
      ((∃ sheet ∈ sheets, reader.rowsOf content sheet ≠ []) ∧
          text = PyStr.join "\n\n".toList
            (sheets.map fun sheet => PyStr.join ['\n'] (reader.linesOf content sheet)) ∨
        (∀ sheet ∈ sheets, reader.rowsOf content sheet = []) ∧ text = []) := by
  simp only [extractXlsxText, bind, Except.bind] at h
  cases hload : reader.loadWorkbook content with
  | error e => simp [hload, Except.mapError] at h
  | ok sheets =>
    simp only [hload, Except.mapError] at h
    split at h
    · cases h
    · next result hsheets =>
      obtain ⟨parts, totals⟩ := result
      obtain ⟨hparts, hdata⟩ := xlsxSheets_eq hsheets
      refine ⟨sheets, rfl, ?_⟩
      split at h
      · next hany =>
        cases h
        refine .inl ⟨(hdata.mp hany).resolve_left (by decide), ?_⟩
        rw [hparts]
        rfl
      · next hany =>
        cases h
        refine .inr ⟨fun sheet hsheet => ?_, rfl⟩
        by_contra hne
        exact hany (hdata.mpr (.inr ⟨sheet, hsheet, hne⟩))

end

/-! ## What the row chunker sees -/

/-- The lines that `_chunk_by_rows` does not skip. -/
def chunkerLines (text : List Char) : List (List Char) :=
  ((lineEntries text).map TextSpan.text).filter fun line => PyStr.strip line ≠ []

/-- Lines that end with newlines only are the pieces between the line ends. -/
theorem chunkerLines_eq {text : List Char}
    (h : ∀ c ∈ text, PyStr.isLineBreak c = true → c = '\n') :
    chunkerLines text =
      (text.splitOnP PyStr.isLineBreak).filter fun line => PyStr.strip line ≠ [] := by
  rw [← PyStr.filter_lines, chunkerLines, lineEntries, map_text_lineEntriesFrom, PyStr.lines]
  congr 1
  refine List.map_congr_left fun raw hraw => ?_
  obtain ⟨newline, hcut, hends⟩ := PyStr.exists_append_rstripNewlines raw
  have hnewline := PyStr.newline_notMem_rstripNewlines hraw
  -- a line of the chunker ends at its newline, and has no other line end
  have hkept : ∀ c ∈ PyStr.rstripNewlines raw, (!PyStr.isLineBreak c) = true := by
    intro c hc
    by_contra hend
    have hin : c ∈ text := by
      rw [← PyStr.flatten_splitlines text]
      refine List.mem_flatten.mpr ⟨raw, hraw, ?_⟩
      rw [hcut]
      exact List.mem_append_left _ hc
    have hc' := h c hin (by simpa using hend)
    exact hnewline (hc' ▸ hc)
  have hrest : newline.takeWhile (fun c => !PyStr.isLineBreak c) = [] := by
    cases newline with
    | nil => rfl
    | cons c rest => rcases hends c List.mem_cons_self with rfl | rfl <;> rfl
  conv_rhs => rw [hcut]
  rw [List.takeWhile_append_of_pos hkept, hrest, List.append_nil]

/-- The pieces of texts that are joined by a blank line. -/
theorem splitOnP_join_blank {texts : List (List Char)} (hne : texts ≠ []) :
    ((PyStr.join "\n\n".toList texts).splitOnP PyStr.isLineBreak).filter
        (fun line => PyStr.strip line ≠ []) =
      texts.flatMap fun text =>
        (text.splitOnP PyStr.isLineBreak).filter fun line => PyStr.strip line ≠ [] := by
  have hnewline : PyStr.isLineBreak '\n' = true := by decide
  have hnil : PyStr.strip [] = [] := rfl
  induction texts with
  | nil => exact absurd rfl hne
  | cons text texts ih =>
    cases texts with
    | nil => simp
    | cons next texts =>
      have hcut : PyStr.join "\n\n".toList (text :: next :: texts) =
          text ++ '\n' :: '\n' :: PyStr.join "\n\n".toList (next :: texts) := by
        simp
      -- the piece between the two newlines is empty
      have hrest : ('\n' :: PyStr.join "\n\n".toList (next :: texts)).splitOnP PyStr.isLineBreak =
          [] :: (PyStr.join "\n\n".toList (next :: texts)).splitOnP PyStr.isLineBreak := by
        rw [List.splitOnP_cons_eq_if_modifyHead, hnewline]
        rfl
      rw [hcut, List.splitOnP_append_cons _ _ hnewline, hrest, List.filter_append,
        List.filter_cons, hnil, ih (by simp), List.flatMap_cons (x := text)]
      rfl

section

variable (reader : XlsxReader) (content : List UInt8) (sheet : XlsxSheet)

/-- A sheet with no line ends in its title and cells, no separators in the cells of a row, and no
    row that begins like a heading. -/
structure CleanSheet : Prop where
  title : ∀ c ∈ sheet.title, PyStr.isLineBreak c = false
  cells : ∀ cells ∈ reader.rowsOf content sheet, ∀ cell ∈ cells, ∀ c ∈ cell,
    PyStr.isLineBreak c = false
  separated : ∀ cells ∈ reader.rowsOf content sheet,
    SeparatedJoin.Separated " | ".toList cells
  noHeading : ∀ cells ∈ reader.rowsOf content sheet, ∀ first ∈ cells.head?,
    PyStr.startsWith first sheetHeadingPrefix = false

/-- The rows of a workbook stay rows: the chunker sees the lines of its sheets, each row gives its
    cells back, and only headings are headings. -/
structure RowsStayRows (sheets : List XlsxSheet) (text : List Char) : Prop where
  lines : chunkerLines text =
    if ∃ sheet ∈ sheets, reader.rowsOf content sheet ≠ [] then
      (sheets.flatMap (reader.linesOf content)).filter fun line => PyStr.strip line ≠ []
    else []
  cells : ∀ sheet ∈ sheets, ∀ cells ∈ reader.rowsOf content sheet,
    SeparatedJoin.split " | ".toList (rowLine cells) = cells
  headings : ∀ sheet ∈ sheets, PyStr.startsWith (xlsxHeading sheet.title) sheetHeadingPrefix = true ∧
    PyStr.startsWith (xlsxContinuedHeading sheet.title) sheetHeadingPrefix = true ∧
    ∀ cells ∈ reader.rowsOf content sheet,
      PyStr.startsWith (rowLine cells) sheetHeadingPrefix = false

variable {reader content sheet}

theorem mem_of_mem_join {sep : List Char} {texts : List (List Char)} {c : Char}
    (h : c ∈ PyStr.join sep texts) : c ∈ sep ∨ ∃ text ∈ texts, c ∈ text := by
  induction texts with
  | nil => cases h
  | cons text texts ih =>
    cases texts with
    | nil => exact .inr ⟨text, by simp, by simpa using h⟩
    | cons next texts =>
      rw [PyStr.join_cons_cons, List.mem_append, List.mem_append] at h
      rcases h with (h | h) | h
      · exact .inr ⟨text, by simp, h⟩
      · exact .inl h
      · rcases ih h with h | ⟨other, hother, h⟩
        · exact .inl h
        · exact .inr ⟨other, List.mem_cons_of_mem _ hother, h⟩

theorem mem_sheetBody {title : List Char} {lines : List (List Char)} {line : List Char}
    (h : line ∈ sheetBody title lines) : line = xlsxContinuedHeading title ∨ line ∈ lines := by
  obtain ⟨p, hp, hline⟩ := List.mem_flatMap.mp h
  have hin : p.1 ∈ lines := List.fst_mem_of_mem_zipIdx hp
  split at hline
  · have hhead : lines.headD [] ∈ lines := by
      cases lines with
      | nil => cases hin
      | cons first lines => exact List.mem_cons_self
    simp only [List.mem_cons, List.not_mem_nil, or_false] at hline
    rcases hline with rfl | rfl | rfl
    · exact .inl rfl
    · exact .inr hhead
    · exact .inr hin
  · exact .inr (List.mem_singleton.mp hline ▸ hin)

theorem noBreak_of_all {text : List Char}
    (h : text.all (fun c => !PyStr.isLineBreak c) = true) :
    ∀ c ∈ text, PyStr.isLineBreak c = false := by
  intro c hc
  simpa using List.all_eq_true.mp h c hc

/-- The lines of a clean sheet have no line ends. -/
theorem CleanSheet.noBreak (h : CleanSheet reader content sheet) {line : List Char}
    (hline : line ∈ reader.linesOf content sheet) :
    ∀ c ∈ line, PyStr.isLineBreak c = false := by
  have hheading : ∀ c ∈ xlsxHeading sheet.title, PyStr.isLineBreak c = false := by
    intro c hc
    rcases List.mem_append.mp hc with hc | hc
    · exact noBreak_of_all (by decide) c hc
    · exact h.title c hc
  -- a line is a heading, a heading that is continued, or a row
  intro c hc
  rcases List.mem_cons.mp hline with rfl | hline
  · exact hheading c hc
  · rcases mem_sheetBody hline with rfl | hline
    · rcases List.mem_append.mp hc with hc | hc
      · exact hheading c hc
      · exact noBreak_of_all (by decide) c hc
    · obtain ⟨cells, hcells, rfl⟩ := List.mem_map.mp hline
      rcases mem_of_mem_join hc with hc | ⟨cell, hcell, hc⟩
      · exact noBreak_of_all (by decide) c hc
      · exact h.cells cells hcells cell hcell c hc

/-- The rows that are not blank have cells. -/
theorem ne_nil_of_mem_rowsOf {cells : List (List Char)} (h : cells ∈ reader.rowsOf content sheet) :
    cells ≠ [] := by
  obtain ⟨p, -, hp⟩ := List.mem_filterMap.mp h
  split at hp
  · cases hp
  · next hrow =>
    cases hp
    intro hnil
    have hlen := congrArg List.length hnil
    simp only [renderedCells, List.length_map, List.length_zipIdx, List.length_nil,
      List.length_eq_zero_iff] at hlen
    exact hrow (by rw [hlen]; rfl)

/-- A row begins like a heading only if its first cell does. -/
theorem startsWith_rowLine {cells : List (List Char)} (hne : cells ≠ [])
    (h : ∀ first ∈ cells.head?, PyStr.startsWith first sheetHeadingPrefix = false) :
    PyStr.startsWith (rowLine cells) sheetHeadingPrefix = false := by
  obtain ⟨first, rest, rfl⟩ := List.exists_cons_of_ne_nil hne
  have hfirst := h first rfl
  cases rest with
  | nil => simpa [rowLine] using hfirst
  | cons next rest =>
    rw [rowLine, PyStr.join_cons_cons, List.append_assoc]
    rw [PyStr.startsWith, Bool.eq_false_iff, Ne, List.isPrefixOf_iff_prefix] at hfirst ⊢
    rintro ⟨after, hp⟩
    rw [List.append_eq_append_iff] at hp
    rcases hp with ⟨gap, hgap, -⟩ | ⟨gap, hgap, hrest⟩
    · exact hfirst ⟨gap, hgap.symm⟩
    · -- the prefix would end inside of a separator
      match gap with
      | [] => exact hfirst ⟨[], by simp [hgap]⟩
      | [c] =>
        have hblank : ' ' = c := (List.cons.inj hrest).1
        have hlast : sheetHeadingPrefix.getLast? = some ' ' := by rw [hgap, ← hblank]; simp
        revert hlast
        decide
      | c :: d :: gap =>
        have hbar : '|' = d := (List.cons.inj (List.cons.inj hrest).2).1
        have hin : '|' ∈ sheetHeadingPrefix := by rw [hgap, ← hbar]; simp
        revert hin
        decide

theorem chunkerLines_of_clean {sheets : List XlsxSheet} (hne : sheets ≠ [])
    (h : ∀ sheet ∈ sheets, CleanSheet reader content sheet) :
    chunkerLines (PyStr.join "\n\n".toList
        (sheets.map fun sheet => PyStr.join ['\n'] (reader.linesOf content sheet))) =
      (sheets.flatMap (reader.linesOf content)).filter fun line => PyStr.strip line ≠ [] := by
  -- the only line ends are the newlines of the two joins
  have hbreaks : ∀ c ∈ PyStr.join "\n\n".toList
      (sheets.map fun sheet => PyStr.join ['\n'] (reader.linesOf content sheet)),
      PyStr.isLineBreak c = true → c = '\n' := by
    intro c hc hend
    rcases mem_of_mem_join hc with hc | ⟨text, htext, hc⟩
    · simpa using hc
    · obtain ⟨sheet, hsheet, rfl⟩ := List.mem_map.mp htext
      rcases mem_of_mem_join hc with hc | ⟨line, hline, hc⟩
      · exact List.mem_singleton.mp hc
      · rw [(h sheet hsheet).noBreak hline c hc] at hend
        cases hend
  have hlines : ∀ sheet ∈ sheets, (PyStr.join ['\n'] (reader.linesOf content sheet)).splitOnP
      PyStr.isLineBreak = reader.linesOf content sheet := by
    intro sheet hsheet
    have hself : ∀ line ∈ reader.linesOf content sheet,
        line.splitOnP PyStr.isLineBreak = [line] := fun line hline =>
      List.splitOnP_eq_singleton ((h sheet hsheet).noBreak hline)
    have hne : reader.linesOf content sheet ≠ [] := List.cons_ne_nil _ _
    rw [PyStr.splitOnP_join_newline hne, List.flatMap_congr hself, List.flatMap_singleton']
  rw [chunkerLines_eq hbreaks, splitOnP_join_blank (by simpa using hne), List.flatMap_map,
    List.filter_flatMap]
  refine List.flatMap_congr fun sheet hsheet => ?_
  rw [hlines sheet hsheet]

/-- The rows of a workbook stay rows where no sheet has line ends, separators or headings in its
    cells. -/
theorem rowsStayRows {sheets : List XlsxSheet} {text : List Char}
    (hload : reader.loadWorkbook content = .ok sheets)
    (htext : extractXlsxText reader content = .ok text)
    (hclean : ∀ sheet ∈ sheets, CleanSheet reader content sheet) :
    RowsStayRows reader content sheets text := by
  -- the reader and the extraction see the same sheets
  obtain ⟨sheets', hload', hcases⟩ := extractXlsxText_eq reader content htext
  cases hload.symm.trans hload'
  refine ⟨?_, fun sheet hsheet cells hcells => ?_, fun sheet hsheet => ⟨?_, ?_, ?_⟩⟩
  · rcases hcases with ⟨hany, rfl⟩ | ⟨hnone, rfl⟩
    · rw [if_pos hany]
      obtain ⟨sheet, hsheet, -⟩ := hany
      exact chunkerLines_of_clean (List.ne_nil_of_mem hsheet) hclean
    · rw [if_neg fun ⟨sheet, hsheet, hne⟩ => hne (hnone sheet hsheet)]
      rfl
  · exact SeparatedJoin.split_intercalate (by simp) (ne_nil_of_mem_rowsOf hcells)
      ((hclean sheet hsheet).separated cells hcells)
  · exact List.isPrefixOf_iff_prefix.mpr ⟨' ' :: sheet.title, rfl⟩
  · exact List.isPrefixOf_iff_prefix.mpr ⟨' ' :: sheet.title ++ " (continued)".toList, rfl⟩
  · exact fun cells hcells => startsWith_rowLine (ne_nil_of_mem_rowsOf hcells)
      ((hclean sheet hsheet).noHeading cells hcells)

end

/-! ## Workbooks of one sheet -/

/-- A package with one sheet, whose columns are those from A to Z. -/
def oneSheet (title : String) (rows : List (List CellValue)) : XlsxReader where
  loadWorkbook _ := .ok [⟨title.toList, some 1, some 1, none, rows⟩]
  part _ _ := none
  columnLetter n := [Char.ofNat (0x40 + n)]

/-- A sheet of two rows with a blank one between them. -/
def priceRows : List (List CellValue) :=
  [[.other "Item".toList, .other "Price".toList], [.none, .none],
    [.other "Tea|Chai".toList, .datetime ⟨2024, 1, 2⟩ ⟨0, 0, 0, 0⟩]]

theorem rowsStayRows_prices :
    RowsStayRows (oneSheet "Prices" priceRows) []
      [⟨"Prices".toList, some 1, some 1, none, priceRows⟩]
      "## Sheet: Prices\nItem | Price\nTea|Chai | 2024-01-02".toList := by
  refine rowsStayRows rfl (by decide +kernel) fun sheet hsheet => ?_
  rw [List.mem_singleton.mp hsheet]
  have hrows : (oneSheet "Prices" priceRows).rowsOf []
      ⟨"Prices".toList, some 1, some 1, none, priceRows⟩ =
        [["Item".toList, "Price".toList], ["Tea|Chai".toList, "2024-01-02".toList]] := by
    decide +kernel
  refine ⟨noBreak_of_all (by decide), ?_, ?_, ?_⟩ <;> rw [hrows]
  · simp only [List.forall_mem_cons, List.not_mem_nil, false_implies, implies_true, and_true]
    exact ⟨⟨noBreak_of_all (by decide), noBreak_of_all (by decide)⟩,
      ⟨noBreak_of_all (by decide), noBreak_of_all (by decide)⟩⟩
  · simp only [List.forall_mem_cons, List.not_mem_nil, false_implies, implies_true, and_true]
    exact ⟨by decide, by decide⟩
  · simp only [List.forall_mem_cons, List.not_mem_nil, false_implies, implies_true, and_true,
      List.head?_cons, Option.mem_def, Option.some.injEq, forall_eq']
    exact ⟨by decide, by decide⟩

/-- Every row that is not blank is one of the lines that are no headings. -/
def OneLineEach (reader : XlsxReader) (content : List UInt8) (sheets : List XlsxSheet)
    (text : List Char) : Prop :=
  (chunkerLines text).filter (fun line => !PyStr.startsWith line sheetHeadingPrefix) =
    (sheets.flatMap fun sheet => (reader.rowsOf content sheet).map rowLine).filter
      fun line => PyStr.strip line ≠ []

/-- A header row and fifty more rows. -/
def fiftyOneRows : List (List CellValue) :=
  [.other "h".toList] :: List.replicate 50 [.other "x".toList]

/-- The header row comes twice in a sheet of fifty-one rows. -/
theorem not_oneLineEach_fiftyOneRows :
    ∃ text, extractXlsxText (oneSheet "S" fiftyOneRows) [] = .ok text ∧
      ¬ OneLineEach (oneSheet "S" fiftyOneRows) []
        [⟨"S".toList, some 1, some 1, none, fiftyOneRows⟩] text := by
  refine ⟨PyStr.join ['\n'] (["## Sheet: S".toList, ['h']] ++ List.replicate 49 ['x'] ++
    ["## Sheet: S (continued)".toList, ['h'], ['x']]), by decide +kernel, fun h => ?_⟩
  have hlen := congrArg List.length h
  revert hlen
  decide +kernel

end Inherent
