import Inherent.Spec.XlsxRows

/-!
# The markers of merged cells

The loop counts rows and columns from the used range of the sheet, but openpyxl's rows start at
A1.  `markersRight_iff`: the markers stand on the first cells of the merged ranges if the used
range starts at A1, and otherwise only if none is due and none is found.
-/

namespace Inherent

/-! ## Merged ranges -/

/-- A merged range by its first and its last cell. -/
structure MergedRange where
  firstRow : Nat
  firstColumn : Nat
  lastRow : Nat
  lastColumn : Nat
  deriving DecidableEq

/-- What is used of `get_column_letter` up to a column: its names are different words of capital
    letters. -/
structure ColumnLetters (columnLetter : Nat → List Char) (limit : Nat) : Prop where
  ne_nil : ∀ n, 1 ≤ n → n ≤ limit → columnLetter n ≠ []
  upper : ∀ n, 1 ≤ n → n ≤ limit → ∀ c ∈ columnLetter n, c.isUpper = true
  inj : ∀ m n, 1 ≤ m → m ≤ limit → 1 ≤ n → n ≤ limit → columnLetter m = columnLetter n → m = n

section

variable (columnLetter : Nat → List Char)

/-- The name of a cell. -/
def cellName (row column : Nat) : List Char := columnLetter column ++ PyStr.ofNat row

/-- The name of a range. -/
def MergedRange.ref (m : MergedRange) : List Char :=
  cellName columnLetter m.firstRow m.firstColumn ++
    ':' :: cellName columnLetter m.lastRow m.lastColumn

/-- The merged range whose first cell this is. -/
def rangeAt? (ranges : List MergedRange) (row column : Nat) : Option MergedRange :=
  ranges.find? fun m => m.firstRow = row ∧ m.firstColumn = column

/-- A cell with its marker. -/
def markedCell (cell : CellValue) (range : Option MergedRange) : List Char :=
  match range with
  | some m => formatXlsxCell cell ++ " [merged ".toList ++ m.ref columnLetter ++ "]".toList
  | none => formatXlsxCell cell

/-- A text with no tag of a merged cell in it. -/
def NoMergeTag (text : List Char) : Prop :=
  ∀ before c after, text = before ++ "<mergeCell".toList ++ c :: after → PyStr.isSpace c = false

/-- The tag of a merged range, and the text behind it. -/
def writeMergeCell (m : MergedRange) (blank gap : List Char) : List Char :=
  "<mergeCell".toList ++ blank ++ "ref=\"".toList ++ m.ref columnLetter ++ '"' :: gap

/-- The XML of a sheet with these merged ranges. -/
def writeMergeCells (before : List Char) (tags : List (MergedRange × List Char × List Char)) :
    List Char :=
  before ++ tags.flatMap fun t => writeMergeCell columnLetter t.1 t.2.1 t.2.2

/-- A sheet whose XML has these merged ranges, in columns up to a limit and no two with one first
    cell. -/
structure SheetMerges (limit : Nat) (xml : List Char) (ranges : List MergedRange) : Prop where
  letters : ColumnLetters columnLetter limit
  bounds : ∀ m ∈ ranges, (1 ≤ m.firstColumn ∧ m.firstColumn ≤ limit) ∧
    (1 ≤ m.lastColumn ∧ m.lastColumn ≤ limit)
  firsts : (ranges.map fun m => (m.firstRow, m.firstColumn)).Nodup
  written : ∃ before tags, xml = writeMergeCells columnLetter before tags ∧
    tags.map Prod.fst = ranges ∧ NoMergeTag before ∧
    ∀ t ∈ tags, (t.2.1 ≠ [] ∧ ∀ c ∈ t.2.1, PyStr.isSpace c = true) ∧ NoMergeTag t.2.2

end

/-! ## Names of cells -/

variable {columnLetter : Nat → List Char} {limit : Nat}

theorem isUpper_of_isDigit {c : Char} (h : c.isDigit = true) : c.isUpper = false := by
  by_contra hupper
  rw [Bool.not_eq_false] at hupper
  simp [Char.isUpper, Char.isDigit, UInt32.le_iff_toNat_le] at h hupper
  omega

/-- The letters of a cell's name. -/
theorem takeWhile_cellName (h : ColumnLetters columnLetter limit) {column : Nat}
    (hlow : 1 ≤ column) (hhigh : column ≤ limit) (row : Nat) (rest : List Char) :
    (cellName columnLetter row column ++ rest).takeWhile Char.isUpper = columnLetter column ∧
      (cellName columnLetter row column ++ rest).dropWhile Char.isUpper =
        PyStr.ofNat row ++ rest := by
  obtain ⟨d, digits, hdigits⟩ := List.exists_cons_of_ne_nil (PyStr.ofNat_ne_nil row)
  have hd : d.isUpper = false :=
    isUpper_of_isDigit (PyStr.isDigit_of_mem_ofNat (n := row) (by rw [hdigits]; simp))
  -- the letters end at the first digit of the row
  rw [cellName, List.append_assoc, hdigits]
  constructor
  · rw [List.takeWhile_append_of_pos (h.upper column hlow hhigh)]
    simp [hd]
  · rw [List.dropWhile_append_of_pos (h.upper column hlow hhigh)]
    simp [hd]

theorem cellName_inj (h : ColumnLetters columnLetter limit) {row row' column column' : Nat}
    (hlow : 1 ≤ column) (hhigh : column ≤ limit) (hlow' : 1 ≤ column') (hhigh' : column' ≤ limit)
    (heq : cellName columnLetter row column = cellName columnLetter row' column') :
    row = row' ∧ column = column' := by
  have hcut := takeWhile_cellName h hlow hhigh row []
  have hcut' := takeWhile_cellName h hlow' hhigh' row' []
  rw [List.append_nil] at hcut hcut'
  rw [heq] at hcut
  have hrows := hcut.2.symm.trans hcut'.2
  simp only [List.append_nil] at hrows
  exact ⟨PyStr.ofNat_inj hrows, h.inj _ _ hlow hhigh hlow' hhigh' (hcut.1.symm.trans hcut'.1)⟩

/-- A cell's name is read up to a character that is no digit. -/
theorem cellRef?_cellName (h : ColumnLetters columnLetter limit) {column : Nat}
    (hlow : 1 ≤ column) (hhigh : column ≤ limit) (row : Nat) {c : Char}
    (hc : PyStr.isDecimal c = false) (rest : List Char) :
    cellRef? (cellName columnLetter row column ++ c :: rest) =
      some (cellName columnLetter row column, c :: rest) := by
  obtain ⟨hletters, hrest⟩ := takeWhile_cellName h hlow hhigh row (c :: rest)
  have hdigits : ∀ d ∈ PyStr.ofNat row, PyStr.isDecimal d = true :=
    fun d hd => PyStr.isDecimal_of_isDigit (PyStr.isDigit_of_mem_ofNat hd)
  have htake : (PyStr.ofNat row ++ c :: rest).takeWhile PyStr.isDecimal = PyStr.ofNat row := by
    rw [List.takeWhile_append_of_pos hdigits]
    simp [hc]
  have hdrop : (PyStr.ofNat row ++ c :: rest).dropWhile PyStr.isDecimal = c :: rest := by
    rw [List.dropWhile_append_of_pos hdigits]
    simp [hc]
  simp only [cellRef?, hletters, hrest, htake, hdrop]
  rw [if_neg (by simp [h.ne_nil column hlow hhigh, PyStr.ofNat_ne_nil])]
  rfl

/-! ## Scanning the XML -/

/-- A tag begins the text where a merged cell is matched. -/
theorem mergeCell?_isSome {text : List Char} (h : (mergeCell? text).isSome = true) :
    ∃ c after, text = "<mergeCell".toList ++ c :: after ∧ PyStr.isSpace c = true := by
  unfold mergeCell? at h
  cases htag : behind? "<mergeCell".toList text with
  | none =>
    rw [htag] at h
    cases h
  | some tag =>
    rw [htag] at h
    cases hspace : tag.head?.any PyStr.isSpace with
    | false => simp [hspace, guard, failure] at h
    | true =>
      rw [behind?] at htag
      split at htag
      · next hprefix =>
        obtain ⟨rest, rfl⟩ := List.isPrefixOf_iff_prefix.mp hprefix
        cases htag
        rw [List.drop_left] at hspace
        cases rest with
        | nil => cases hspace
        | cons c after => exact ⟨c, after, rfl, hspace⟩
      · cases htag

theorem behind?_append (literal rest : List Char) :
    behind? literal (literal ++ rest) = some rest := by
  rw [behind?, PyStr.startsWith, if_pos (List.isPrefixOf_iff_prefix.mpr ⟨rest, rfl⟩),
    List.drop_left]

theorem isDecimal_colon : PyStr.isDecimal ':' = false := by decide +kernel

/-- The tag of a merged range is matched. -/
theorem mergeCell?_write (h : ColumnLetters columnLetter limit) {m : MergedRange}
    (hfirst : 1 ≤ m.firstColumn ∧ m.firstColumn ≤ limit)
    (hlast : 1 ≤ m.lastColumn ∧ m.lastColumn ≤ limit) {blank : List Char} (hne : blank ≠ [])
    (hblank : ∀ c ∈ blank, PyStr.isSpace c = true) (gap : List Char) :
    mergeCell? (writeMergeCell columnLetter m blank gap) =
      some (cellName columnLetter m.firstRow m.firstColumn,
        cellName columnLetter m.lastRow m.lastColumn, gap) := by
  have hquote : PyStr.isDecimal '"' = false := by decide +kernel
  -- the parts of the tag in the order in which they are matched
  have hcut : writeMergeCell columnLetter m blank gap = "<mergeCell".toList ++ (blank ++
      ("ref=\"".toList ++ (cellName columnLetter m.firstRow m.firstColumn ++
        ':' :: (cellName columnLetter m.lastRow m.lastColumn ++ '"' :: gap)))) := by
    have hgroup : ∀ (t x r a b gap : List Char) (c q : Char), t ++ x ++ r ++ (a ++ c :: b) ++
        q :: gap = t ++ (x ++ (r ++ (a ++ c :: (b ++ q :: gap)))) := by simp
    exact hgroup _ _ _ _ _ _ _ _
  generalize hrest : "ref=\"".toList ++ (cellName columnLetter m.firstRow m.firstColumn ++
    ':' :: (cellName columnLetter m.lastRow m.lastColumn ++ '"' :: gap)) = rest at hcut
  have hspace : (blank ++ rest).head?.any PyStr.isSpace = true := by
    obtain ⟨c, more, rfl⟩ := List.exists_cons_of_ne_nil hne
    exact hblank c List.mem_cons_self
  have hdrop : (blank ++ rest).dropWhile PyStr.isSpace = rest := by
    have hr : PyStr.isSpace 'r' = false := by decide
    obtain ⟨more, rfl⟩ : ∃ more, rest = 'r' :: more := ⟨_, hrest.symm⟩
    rw [List.dropWhile_append_of_pos hblank, List.dropWhile_cons, hr]
    rfl
  have hcolons := behind?_append [':'] (cellName columnLetter m.lastRow m.lastColumn ++ '"' :: gap)
  have hquotes := behind?_append ['"'] gap
  rw [List.singleton_append] at hcolons hquotes
  unfold mergeCell?
  rw [hcut, behind?_append]
  simp only [bind, Option.bind, hspace, guard, if_true, pure, hdrop]
  rw [← hrest, behind?_append]
  simp only [cellRef?_cellName h hfirst.1 hfirst.2 _ isDecimal_colon, hcolons,
    cellRef?_cellName h hlast.1 hlast.2 _ hquote, hquotes]

theorem mergeCellsFrom_drop (skip : Nat) (text : List Char) :
    mergeCellsFrom skip text = mergeCellsFrom 0 (text.drop skip) :=
  SeparatedJoin.skip_eq_drop (fun _ _ _ => rfl) (fun _ => rfl) skip text

/-- No tag begins in a text without one, before another tag or at the end. -/
theorem mergeCell?_append {gap : List Char} (h : NoMergeTag gap) (hne : gap ≠ [])
    {rest : List Char} (hrest : ∀ c ∈ rest.head?, c = '<') : mergeCell? (gap ++ rest) = none := by
  by_contra hsome
  obtain ⟨c, after, htext, hc⟩ := mergeCell?_isSome (Option.isSome_iff_ne_none.mpr hsome)
  rw [List.append_cons, List.append_eq_append_iff] at htext
  rcases htext with ⟨tail, htag, hin⟩ | ⟨tail, hin, -⟩
  · -- the tag goes on behind the text, but nothing in it but its beginning is a bracket
    cases tail with
    | nil =>
      rw [List.append_nil] at htag
      have := h [] c [] (by rw [← htag]; rfl)
      rw [hc] at this
      cases this
    | cons d tail =>
      have hd : d = '<' := by
        refine hrest d ?_
        rw [hin]
        rfl
      obtain ⟨first, gap, rfl⟩ := List.exists_cons_of_ne_nil hne
      have hmem : '<' ∈ "mergeCell".toList ++ [c] := by
        have htail : "mergeCell".toList ++ [c] = gap ++ d :: tail := (List.cons.inj htag).2
        rw [htail, hd]
        simp
      rcases List.mem_append.mp hmem with hmem | hmem
      · revert hmem
        decide
      · rw [← List.mem_singleton.mp hmem] at hc
        revert hc
        decide
  · have := h [] c tail (by rw [hin]; simp)
    rw [hc] at this
    cases this

/-- A text before a tag, or at the end, with no tag in it has no matches. -/
theorem mergeCellsFrom_append {gap : List Char} (h : NoMergeTag gap) {rest : List Char}
    (hrest : ∀ c ∈ rest.head?, c = '<') :
    mergeCellsFrom 0 (gap ++ rest) = mergeCellsFrom 0 rest := by
  induction gap with
  | nil => rfl
  | cons c gap ih =>
    have hnone := mergeCell?_append h (by simp) hrest
    rw [List.cons_append] at hnone ⊢
    rw [mergeCellsFrom, hnone]
    exact ih fun before d after heq => h (c :: before) d after (by rw [heq]; rfl)

/-- The scan goes on behind a match. -/
theorem mergeCellsFrom_match {front after first last : List Char} (hne : front ≠ [])
    (h : mergeCell? (front ++ after) = some (first, last, after)) :
    mergeCellsFrom 0 (front ++ after) =
      (first, first ++ ':' :: last) :: mergeCellsFrom 0 after := by
  obtain ⟨c, front, rfl⟩ := List.exists_cons_of_ne_nil hne
  rw [List.cons_append] at h ⊢
  rw [mergeCellsFrom, h]
  simp only
  rw [mergeCellsFrom_drop, List.length_append, Nat.add_sub_cancel, List.drop_left]

/-- The scan finds the merged ranges of the XML, in its order. -/
theorem mergeCells_written (h : ColumnLetters columnLetter limit) {before : List Char}
    (hbefore : NoMergeTag before) {tags : List (MergedRange × List Char × List Char)}
    (hbounds : ∀ t ∈ tags, (1 ≤ t.1.firstColumn ∧ t.1.firstColumn ≤ limit) ∧
      (1 ≤ t.1.lastColumn ∧ t.1.lastColumn ≤ limit))
    (htags : ∀ t ∈ tags, (t.2.1 ≠ [] ∧ ∀ c ∈ t.2.1, PyStr.isSpace c = true) ∧
      NoMergeTag t.2.2) :
    mergeCells (writeMergeCells columnLetter before tags) =
      tags.map fun t => (cellName columnLetter t.1.firstRow t.1.firstColumn,
        t.1.ref columnLetter) := by
  induction tags generalizing before with
  | nil =>
    have hnone := @mergeCellsFrom_append before hbefore [] (by simp)
    rw [writeMergeCells, mergeCells, List.flatMap_nil, hnone]
    rfl
  | cons t tags ih =>
    obtain ⟨m, blank, gap⟩ := t
    obtain ⟨⟨hne, hblank⟩, hgap⟩ := htags _ List.mem_cons_self
    -- the text before the tag has no match, and the scan goes on behind the tag
    have hmatch := mergeCell?_write h (hbounds _ List.mem_cons_self).1
      (hbounds _ List.mem_cons_self).2 hne hblank
      (gap ++ tags.flatMap fun t => writeMergeCell columnLetter t.1 t.2.1 t.2.2)
    have hlater := ih hgap (fun t ht => hbounds t (List.mem_cons_of_mem _ ht))
      fun t ht => htags t (List.mem_cons_of_mem _ ht)
    rw [writeMergeCells, mergeCells] at hlater ⊢
    rw [List.flatMap_cons, mergeCellsFrom_append hbefore (fun c hc => by cases hc; rfl),
      List.map_cons, ← hlater]
    generalize tags.flatMap (fun t => writeMergeCell columnLetter t.1 t.2.1 t.2.2) = more at *
    have hgroup : ∀ gap, writeMergeCell columnLetter m blank gap ++ more =
        writeMergeCell columnLetter m blank [] ++ (gap ++ more) := by
      have hcut : ∀ (t gap : List Char) (q : Char),
          t ++ q :: gap ++ more = t ++ [q] ++ (gap ++ more) := by simp
      exact fun gap => hcut _ gap _
    have hwrite := hgroup gap
    have hsame : writeMergeCell columnLetter m blank (gap ++ more) =
        writeMergeCell columnLetter m blank [] ++ (gap ++ more) := by
      have hcut : ∀ (t gap : List Char) (q : Char), t ++ q :: gap = t ++ [q] ++ gap := by simp
      exact hcut _ _ _
    rw [hsame] at hmatch
    have hne : writeMergeCell columnLetter m blank [] ≠ [] :=
      List.append_ne_nil_of_right_ne_nil _ (List.cons_ne_nil _ _)
    rw [hwrite, mergeCellsFrom_match hne hmatch]
    rfl

/-! ## Markers -/

/-- The anchor of a cell is the merged range that begins there. -/
theorem lookup_ranges (h : ColumnLetters columnLetter limit) {ranges : List MergedRange}
    (hbounds : ∀ m ∈ ranges, 1 ≤ m.firstColumn ∧ m.firstColumn ≤ limit)
    (hfirsts : (ranges.map fun m => (m.firstRow, m.firstColumn)).Nodup) (row : Nat) {column : Nat}
    (hlow : 1 ≤ column) (hhigh : column ≤ limit) :
    (ranges.map fun m => (cellName columnLetter m.firstRow m.firstColumn,
        m.ref columnLetter)).reverse.lookup (cellName columnLetter row column) =
      (rangeAt? ranges row column).map (MergedRange.ref columnLetter) := by
  induction ranges with
  | nil => rfl
  | cons m ranges ih =>
    rw [List.map_cons, List.nodup_cons] at hfirsts
    have hm := hbounds m List.mem_cons_self
    have ih := ih (fun m hm => hbounds m (List.mem_cons_of_mem _ hm)) hfirsts.2
    -- a name is that of the range just if the range begins there
    have hname : (cellName columnLetter row column ==
        cellName columnLetter m.firstRow m.firstColumn) =
          decide (m.firstRow = row ∧ m.firstColumn = column) := by
      rw [Bool.eq_iff_iff, beq_iff_eq, decide_eq_true_iff]
      constructor
      · intro heq
        obtain ⟨hrow, hcolumn⟩ := cellName_inj h hlow hhigh hm.1 hm.2 heq
        exact ⟨hrow.symm, hcolumn.symm⟩
      · rintro ⟨rfl, rfl⟩
        rfl
    rw [List.map_cons, List.reverse_cons, List.lookup_append, ih, List.lookup_cons, hname]
    simp only [rangeAt?, List.find?_cons]
    by_cases heq : m.firstRow = row ∧ m.firstColumn = column
    · -- no other range begins there
      have hnone : ranges.find? (fun m => m.firstRow = row ∧ m.firstColumn = column) = none := by
        rw [List.find?_eq_none]
        intro other hother hsame
        refine hfirsts.1 (List.mem_map.mpr ⟨other, hother, ?_⟩)
        have hsame := of_decide_eq_true hsame
        rw [Prod.mk.injEq]
        exact ⟨hsame.1.trans heq.1.symm, hsame.2.trans heq.2.symm⟩
      rw [hnone, decide_eq_true heq]
      rfl
    · rw [decide_eq_false heq]
      simp

/-- A sheet is rendered with the markers of the ranges where its cells are counted. -/
theorem renderedCells_eq (h : ColumnLetters columnLetter limit) {ranges : List MergedRange}
    (hbounds : ∀ m ∈ ranges, 1 ≤ m.firstColumn ∧ m.firstColumn ≤ limit)
    (hfirsts : (ranges.map fun m => (m.firstRow, m.firstColumn)).Nodup) {minColumn : Nat}
    (hlow : 1 ≤ minColumn) (rowNumber : Nat) {row : List CellValue}
    (hhigh : minColumn + row.length ≤ limit + 1) :
    renderedCells columnLetter (ranges.map fun m =>
        (cellName columnLetter m.firstRow m.firstColumn, m.ref columnLetter)).reverse
        minColumn rowNumber row =
      row.zipIdx.map fun p =>
        markedCell columnLetter p.1 (rangeAt? ranges rowNumber (minColumn + p.2)) := by
  refine List.map_congr_left fun p hp => ?_
  have hindex : p.2 < row.length := by
    have := List.snd_lt_of_mem_zipIdx hp
    omega
  have hfirst : 1 ≤ minColumn + p.2 := by omega
  have hlast : minColumn + p.2 ≤ limit := by omega
  have hlookup := lookup_ranges h hbounds hfirsts rowNumber hfirst hlast
  rw [cellName] at hlookup
  rw [hlookup]
  cases rangeAt? ranges rowNumber (minColumn + p.2) <;> rfl

/-- Different markers are different texts. -/
theorem markedCell_inj {cell : CellValue} {range range' : Option MergedRange}
    (h : markedCell columnLetter cell range = markedCell columnLetter cell range') :
    range.map (MergedRange.ref columnLetter) = range'.map (MergedRange.ref columnLetter) := by
  have hlen := congrArg List.length h
  cases range with
  | none =>
    cases range' with
    | none => rfl
    | some m => simp [markedCell] at hlen
  | some m =>
    cases range' with
    | none => simp [markedCell] at hlen
    | some m' =>
      simp only [markedCell, List.append_assoc, List.append_cancel_left_eq,
        List.append_cancel_right_eq] at h
      rw [Option.map_some, Option.map_some, h]

section

variable (columnLetter : Nat → List Char) (anchors : List (List Char × List Char))
  (sheet : XlsxSheet) (totals : XlsxTotals) (ranges : List MergedRange)

/-- The cells of the rows that the loop renders have the markers of the ranges that begin there:
    the first row is row 1, and the first cell of a row is column 1. -/
def MarkersRight : Prop :=
  ∀ before row after s, sheet.rows = before ++ row :: after →
    xlsxRows columnLetter anchors sheet totals before = .ok s → isBlankRow row = false →
      renderedCells columnLetter anchors sheet.firstColumn s.rowNumber row =
        row.zipIdx.map fun p =>
          markedCell columnLetter p.1 (rangeAt? ranges (before.length + 1) (p.2 + 1))

/-- The used range of the sheet begins at A1, or no merged range begins at a cell of a row that is
    not blank, nor where the used range moves such a cell to. -/
def MarkersAligned : Prop :=
  (sheet.firstRow = 1 ∧ sheet.firstColumn = 1) ∨
    ∀ before row after, sheet.rows = before ++ row :: after → isBlankRow row = false →
      ∀ j < row.length, rangeAt? ranges (before.length + 1) (j + 1) = none ∧
        rangeAt? ranges (sheet.firstRow + before.length) (sheet.firstColumn + j) = none

variable {columnLetter anchors sheet totals ranges}

/-- The loop over the rows goes over the first ones. -/
theorem xlsxRows_prefix {before after : List (List CellValue)} {s : XlsxState}
    (h : xlsxRows columnLetter anchors sheet totals (before ++ after) = .ok s) :
    ∃ s', xlsxRows columnLetter anchors sheet totals before = .ok s' := by
  rw [xlsxRows, List.foldlM_append] at h
  cases hbefore : xlsxRows columnLetter anchors sheet totals before with
  | ok s' => exact ⟨s', rfl⟩
  | error e =>
    rw [xlsxRows] at hbefore
    rw [hbefore] at h
    cases h

theorem firstColumn_pos : 1 ≤ sheet.firstColumn := by
  rw [XlsxSheet.firstColumn]
  split <;> omega

/-- Two ranges with one name begin at one cell. -/
theorem rangeAt?_ref (h : ColumnLetters columnLetter limit)
    (hbounds : ∀ m ∈ ranges, (1 ≤ m.firstColumn ∧ m.firstColumn ≤ limit) ∧
      (1 ≤ m.lastColumn ∧ m.lastColumn ≤ limit)) {row column row' column' : Nat}
    {m m' : MergedRange} (hm : rangeAt? ranges row column = some m)
    (hm' : rangeAt? ranges row' column' = some m')
    (href : m.ref columnLetter = m'.ref columnLetter) : row = row' ∧ column = column' := by
  have hplace : ∀ {r c : Nat} {m : MergedRange}, rangeAt? ranges r c = some m →
      (1 ≤ m.firstColumn ∧ m.firstColumn ≤ limit) ∧ m.firstRow = r ∧ m.firstColumn = c := by
    intro r c m hm
    have hplace := List.find?_some hm
    exact ⟨(hbounds _ (List.mem_of_find?_eq_some hm)).1, by simpa using hplace⟩
  obtain ⟨hcolumns, rfl, rfl⟩ := hplace hm
  obtain ⟨hcolumns', rfl, rfl⟩ := hplace hm'
  -- the name of a range begins with that of its first cell, up to the colon
  have hread := cellRef?_cellName h hcolumns.1 hcolumns.2 m.firstRow isDecimal_colon
    (cellName columnLetter m.lastRow m.lastColumn)
  have hread' := cellRef?_cellName h hcolumns'.1 hcolumns'.2 m'.firstRow isDecimal_colon
    (cellName columnLetter m'.lastRow m'.lastColumn)
  rw [MergedRange.ref, MergedRange.ref] at href
  rw [href, hread'] at hread
  have hname := (Prod.mk.inj (Option.some.inj hread)).1
  exact cellName_inj h hcolumns.1 hcolumns.2 hcolumns'.1 hcolumns'.2 hname.symm

/-- The markers of a sheet name the right cells if and only if its used range begins at A1 or no
    merged range is concerned. -/
theorem markersRight_iff {reader : XlsxReader} {content : List UInt8} {path : String}
    {size : Nat} {xml : List Char} {s : XlsxState} (hpath : sheet.worksheetPath = some path)
    (hpart : reader.part content path = some ⟨size, some xml⟩) (hsize : size ≤ maxMergeScanBytes)
    (hxml : SheetMerges reader.columnLetter limit xml ranges)
    (hwide : ∀ row ∈ sheet.rows, sheet.firstColumn + row.length ≤ limit + 1)
    (hread : xlsxRows reader.columnLetter
      (xlsxMergeAnchors reader content sheet.worksheetPath) sheet totals sheet.rows = .ok s) :
    MarkersRight reader.columnLetter (xlsxMergeAnchors reader content sheet.worksheetPath) sheet
        totals ranges ↔ MarkersAligned sheet ranges := by
  have hanchors : xlsxMergeAnchors reader content sheet.worksheetPath =
      (ranges.map fun m => (cellName reader.columnLetter m.firstRow m.firstColumn,
        m.ref reader.columnLetter)).reverse := by
    obtain ⟨before, tags, rfl, rfl, hbefore, htags⟩ := hxml.written
    have hscan := mergeCells_written hxml.letters hbefore
      (fun t ht => hxml.bounds t.1 (List.mem_map_of_mem ht)) htags
    simp only [xlsxMergeAnchors, hpath, Option.bind_some, hpart, if_neg (Nat.not_lt.mpr hsize),
      Option.getD_some, hscan, List.map_map]
    rfl
  -- what the loop renders behind `before`
  have hcells : ∀ before row after s', sheet.rows = before ++ row :: after →
      xlsxRows reader.columnLetter (xlsxMergeAnchors reader content sheet.worksheetPath) sheet
        totals before = .ok s' →
      renderedCells reader.columnLetter (xlsxMergeAnchors reader content sheet.worksheetPath)
          sheet.firstColumn s'.rowNumber row =
        row.zipIdx.map fun p => markedCell reader.columnLetter p.1
          (rangeAt? ranges (sheet.firstRow + before.length) (sheet.firstColumn + p.2)) := by
    intro before row after s' hrows hs'
    rw [(xlsxRead_of_rows hs').rowNumber, hanchors]
    exact renderedCells_eq hxml.letters (fun m hm => (hxml.bounds m hm).1) hxml.firsts
      firstColumn_pos _ (hwide row (by simp [hrows]))
  constructor
  · intro hright
    -- some cell has a range at its own place, or at the place that it is moved to
    by_contra hbad
    simp only [MarkersAligned, not_or, not_and, not_forall] at hbad
    obtain ⟨hmoved, before, row, after, hrows, hblank, j, hj, hdue⟩ := hbad
    obtain ⟨s', hs'⟩ := xlsxRows_prefix (by rw [← hrows]; exact hread)
    have hsame := (hcells before row after s' hrows hs').symm.trans
      (hright before row after s' hrows hs' (by simpa using hblank))
    have hcell := congrArg (fun cells => cells[j]?) hsame
    simp only [List.getElem?_map, List.getElem?_zipIdx, List.getElem?_eq_getElem hj,
      Option.map_some, Option.some.injEq, Nat.zero_add] at hcell
    -- the moved cell and the cell itself have one marker, so they are one cell
    have hrefs := markedCell_inj hcell
    cases hfound : rangeAt? ranges (sheet.firstRow + before.length) (sheet.firstColumn + j) with
    | none =>
      rw [hfound, Option.map_none, eq_comm, Option.map_eq_none_iff] at hrefs
      exact hdue hrefs hfound
    | some m =>
      cases hown : rangeAt? ranges (before.length + 1) (j + 1) with
      | none =>
        rw [hfound, hown] at hrefs
        cases hrefs
      | some m' =>
        rw [hfound, hown] at hrefs
        obtain ⟨hrow, hcolumn⟩ :=
          rangeAt?_ref hxml.letters hxml.bounds hfound hown (Option.some.inj hrefs)
        exact hmoved (by omega) (by omega)
  · rintro (⟨hrow, hcolumn⟩ | hclear) before row after s' hrows hs' hblank
    · rw [hcells before row after s' hrows hs', hrow, hcolumn]
      refine List.map_congr_left fun p _ => ?_
      rw [Nat.add_comm 1, Nat.add_comm 1]
    · rw [hcells before row after s' hrows hs']
      refine List.map_congr_left fun p hp => ?_
      have hindex : p.2 < row.length := by
        have := List.snd_lt_of_mem_zipIdx hp
        omega
      obtain ⟨hown, hfound⟩ := hclear before row after hrows hblank p.2 hindex
      rw [hown, hfound]

end

/-! ## A sheet with a merged pair -/

/-- A range of two cells. -/
def mergedPair (row column : Nat) : MergedRange := ⟨row, column, row, column + 1⟩

/-- A package whose sheet has `pair` merged, with columns from A to Z. -/
def pairSheet (pair : MergedRange) : XlsxReader where
  loadWorkbook _ := .ok []
  part _ _ := some ⟨100, some (writeMergeCells (fun n => [Char.ofNat (0x40 + n)]) "<s>".toList
    [(pair, [' '], "/></s>".toList)])⟩
  columnLetter n := [Char.ofNat (0x40 + n)]

/-- A sheet with a value in one row, its used range beginning at a row and a column. -/
def pairRows (row column : Nat) (rows : List (List CellValue)) : XlsxSheet :=
  ⟨"S".toList, some row, some column, some "sheet1.xml", rows⟩

theorem columnLetters_az : ColumnLetters (fun n => [Char.ofNat (0x40 + n)]) 26 where
  ne_nil _ _ _ := List.cons_ne_nil _ _
  upper n hlow hhigh := by
    have hall : ∀ m : Fin 27, 1 ≤ m.val → (Char.ofNat (0x40 + m.val)).isUpper = true := by decide
    intro c hc
    rw [List.mem_singleton.mp hc]
    exact hall ⟨n, by omega⟩ hlow
  inj m n hm hm' hn hn' h := by
    have hall : ∀ a b : Fin 27, Char.ofNat (0x40 + a.val) = Char.ofNat (0x40 + b.val) → a = b := by
      decide
    exact congrArg Fin.val (hall ⟨m, by omega⟩ ⟨n, by omega⟩ (List.cons.inj h).1)

theorem noMergeTag_of_lt {text : List Char} (h : text.length < 11) : NoMergeTag text := by
  intro before c after htext
  have hlen := congrArg List.length htext
  have hten : "<mergeCell".toList.length = 10 := by decide
  rw [List.length_append, List.length_append, List.length_cons, hten] at hlen
  omega

theorem sheetMerges_pair {row column : Nat} (h : 1 ≤ column ∧ column + 1 ≤ 26) :
    SheetMerges (fun n => [Char.ofNat (0x40 + n)]) 26
      (writeMergeCells (fun n => [Char.ofNat (0x40 + n)]) "<s>".toList
        [(mergedPair row column, [' '], "/></s>".toList)]) [mergedPair row column] where
  letters := columnLetters_az
  bounds m hm := by
    rw [List.mem_singleton.mp hm]
    exact ⟨⟨h.1, by simp [mergedPair]; omega⟩, ⟨by simp [mergedPair], h.2⟩⟩
  firsts := by simp
  written := by
    refine ⟨_, _, rfl, rfl, noMergeTag_of_lt (by decide), fun t ht => ?_⟩
    rw [List.mem_singleton.mp ht]
    have hgap : "/></s>".toList.length < 11 := by decide
    exact ⟨⟨by simp, by simp [PyStr.isSpace]⟩, noMergeTag_of_lt hgap⟩

/-- A used range from A1 on has its markers right. -/
theorem markersRight_a1 :
    MarkersRight (pairSheet (mergedPair 1 1)).columnLetter
      (xlsxMergeAnchors (pairSheet (mergedPair 1 1)) [] (some "sheet1.xml"))
      (pairRows 1 1 [[.other "x".toList, .none]]) {} [mergedPair 1 1] := by
  obtain ⟨s, hs⟩ : ∃ s, xlsxRows (pairSheet (mergedPair 1 1)).columnLetter
      (xlsxMergeAnchors (pairSheet (mergedPair 1 1)) [] (some "sheet1.xml"))
      (pairRows 1 1 [[.other "x".toList, .none]]) {} [[.other "x".toList, .none]] = .ok s :=
    ⟨_, rfl⟩
  exact (markersRight_iff rfl rfl (by decide) (sheetMerges_pair (by decide)) (by
    intro row hrow
    rw [List.mem_singleton.mp hrow]
    decide) hs).mpr (.inl (by decide))

/-- A blank row and a row with a value in its second column. -/
def secondCell : List (List CellValue) :=
  [[.none, .none, .none], [.none, .other "x".toList, .none]]

/-- A used range from B2 on leaves B2 without its marker. -/
theorem not_markersRight_b2 :
    (∃ s, xlsxRows (pairSheet (mergedPair 2 2)).columnLetter
        (xlsxMergeAnchors (pairSheet (mergedPair 2 2)) [] (some "sheet1.xml"))
        (pairRows 2 2 secondCell) {} secondCell = .ok s) ∧
      ¬ MarkersRight (pairSheet (mergedPair 2 2)).columnLetter
        (xlsxMergeAnchors (pairSheet (mergedPair 2 2)) [] (some "sheet1.xml"))
        (pairRows 2 2 secondCell) {} [mergedPair 2 2] := by
  refine ⟨⟨_, rfl⟩, fun h => ?_⟩
  have hcells := h [[.none, .none, .none]] [.none, .other "x".toList, .none] [] _ rfl rfl rfl
  revert hcells
  decide +kernel

end Inherent
