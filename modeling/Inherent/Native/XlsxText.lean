import Inherent.Native.Package
import Inherent.Native.PyLines
import Inherent.Native.PyNumbers

/-!
# Text of XLSX workbooks

`_extract_xlsx_text` (`temporal/activities/extract.py`): for each sheet a heading and one line
for each row that is not blank, with the heading and the header row again after every fifty
rows, a marker on cells that `_xlsx_merge_anchors` finds in the XML of the sheet, and caps on
the cells and the characters of the workbook.
-/

namespace PyStr

/-- A number with zeros before it. -/
def padTo (width n : Nat) : List Char :=
  List.replicate (width - (ofNat n).length) '0' ++ ofNat n

end PyStr

namespace Inherent

/-! ## Cells -/

structure CellDate where
  year : Nat
  month : Nat
  day : Nat
  deriving DecidableEq, Repr

structure CellTime where
  hour : Nat
  minute : Nat
  second : Nat
  microsecond : Nat
  deriving DecidableEq, Repr

/-- The value of a cell: `None`, a `datetime`, a `date`, or another value by its `str`. -/
inductive CellValue where
  | none
  | datetime (date : CellDate) (time : CellTime)
  | date (date : CellDate)
  | other (str : List Char)
  deriving DecidableEq, Repr

/-- `date.isoformat()`. -/
def CellDate.isoformat (d : CellDate) : List Char :=
  PyStr.padTo 4 d.year ++ '-' :: PyStr.padTo 2 d.month ++ '-' :: PyStr.padTo 2 d.day

/-- `time.isoformat()`. -/
def CellTime.isoformat (t : CellTime) : List Char :=
  PyStr.padTo 2 t.hour ++ ':' :: PyStr.padTo 2 t.minute ++ ':' :: PyStr.padTo 2 t.second ++
    if t.microsecond = 0 then [] else '.' :: PyStr.padTo 6 t.microsecond

/-- `_MAX_XLSX_CELLS`. -/
def maxXlsxCells : Nat := 500000

/-- `_MAX_XLSX_CELL_CHARS`. -/
def maxXlsxCellChars : Nat := 10000

/-- `_MAX_XLSX_TEXT_CHARS`. -/
def maxXlsxTextChars : Nat := 5000000

/-- `_XLSX_HEADER_REPEAT_ROWS`. -/
def xlsxHeaderRepeatRows : Nat := 50

/-- `_MAX_MERGE_SCAN_BYTES`. -/
def maxMergeScanBytes : Nat := 5000000

/-- A rendered value is cut with a visible marker. -/
def boundXlsxCell (rendered : List Char) : List Char :=
  if maxXlsxCellChars < rendered.length then
    rendered.take maxXlsxCellChars ++ "...[truncated, ".toList ++ PyStr.ofNat rendered.length ++
      " chars]".toList
  else rendered

/-- `_format_xlsx_cell`. -/
def formatXlsxCell : CellValue → List Char
  | .none => []
  | .datetime date time =>
    boundXlsxCell (if time = ⟨0, 0, 0, 0⟩ then date.isoformat
      else date.isoformat ++ 'T' :: time.isoformat)
  | .date date => boundXlsxCell date.isoformat
  | .other str => boundXlsxCell str

/-! ## Merged cells -/

/-- `[A-Z]+\d+`, and what is behind it. -/
def cellRef? (text : List Char) : Option (List Char × List Char) :=
  let letters := text.takeWhile Char.isUpper
  let rest := text.dropWhile Char.isUpper
  let digits := rest.takeWhile PyStr.isDecimal
  if letters = [] ∨ digits = [] then none
  else some (letters ++ digits, rest.dropWhile PyStr.isDecimal)

/-- The text behind a literal. -/
def behind? (literal text : List Char) : Option (List Char) :=
  if PyStr.startsWith text literal then some (text.drop literal.length) else none

/-- `<mergeCell\s+ref="([A-Z]+\d+):[A-Z]+\d+"`: the first cell, the last cell, and what is
    behind the match. -/
def mergeCell? (text : List Char) : Option (List Char × List Char × List Char) := do
  let tag ← behind? "<mergeCell".toList text
  guard ((tag.head?.any PyStr.isSpace) = true)
  let ref ← behind? "ref=\"".toList (tag.dropWhile PyStr.isSpace)
  let (first, colon) ← cellRef? ref
  let (last, quote) ← cellRef? (← behind? [':'] colon)
  return (first, last, ← behind? ['"'] quote)

/-- `re.finditer` of merged cells, behind the characters of a match that are skipped. -/
def mergeCellsFrom : Nat → List Char → List (List Char × List Char)
  | _, [] => []
  | skip + 1, _ :: rest => mergeCellsFrom skip rest
  | 0, c :: rest =>
    match mergeCell? (c :: rest) with
    | some (first, last, after) =>
      (first, first ++ ':' :: last) :: mergeCellsFrom (rest.length - after.length) rest
    | none => mergeCellsFrom 0 rest

/-- The anchors of the XML of a sheet, in its order. -/
def mergeCells (xml : List Char) : List (List Char × List Char) := mergeCellsFrom 0 xml

example : mergeCells "<mergeCells count=\"1\"><mergeCell  ref=\"A1:D2\"/></mergeCells>".toList =
    [("A1".toList, "A1:D2".toList)] := by
  decide +kernel

/-- A part of a package: its size, and its text if it can be read. -/
structure XlsxPart where
  fileSize : Nat
  text : Option (List Char)

/-- A sheet as `openpyxl` reads it. -/
structure XlsxSheet where
  title : List Char
  minRow : Option Nat
  minColumn : Option Nat
  worksheetPath : Option String
  /-- `iter_rows(values_only=True)` -/
  rows : List (List CellValue)

/-- `openpyxl` and `zipfile`: the sheets of a workbook (a failure gives the name of the exception
    and its message), the parts of the package, and `get_column_letter`. -/
structure XlsxReader where
  loadWorkbook : List UInt8 → Except (String × String) (List XlsxSheet)
  part : List UInt8 → String → Option XlsxPart
  columnLetter : Nat → List Char

/-- `_xlsx_merge_anchors`: of two ranges with one anchor, the last one counts. -/
def xlsxMergeAnchors (reader : XlsxReader) (content : List UInt8) (path : Option String) :
    List (List Char × List Char) :=
  match path.bind (reader.part content) with
  | none => []
  | some part =>
    if maxMergeScanBytes < part.fileSize then [] else (mergeCells (part.text.getD [])).reverse

/-! ## Rows -/

/-- What is counted over all sheets. -/
structure XlsxTotals where
  cells : Nat := 0
  chars : Nat := 0
  anyData : Bool := false
  deriving DecidableEq, Repr

/-- The state of the loop over the rows of a sheet. -/
structure XlsxState where
  totals : XlsxTotals
  sheetLines : List (List Char)
  headerLine : Option (List Char) := none
  rowsSinceHeading : Nat := 0
  rowNumber : Nat
  deriving DecidableEq, Repr

/-- `all(cell is None for cell in row)`. -/
def isBlankRow (row : List CellValue) : Bool := row.all (· == .none)

/-- The cells of a row, with the markers of merged ranges. -/
def renderedCells (columnLetter : Nat → List Char) (anchors : List (List Char × List Char))
    (minColumn rowNumber : Nat) (row : List CellValue) : List (List Char) :=
  row.zipIdx.map fun p =>
    match anchors.lookup (columnLetter (minColumn + p.2) ++ PyStr.ofNat rowNumber) with
    | some range => formatXlsxCell p.1 ++ " [merged ".toList ++ range ++ "]".toList
    | none => formatXlsxCell p.1

/-- The line of a row. -/
def rowLine (cells : List (List Char)) : List Char := PyStr.join " | ".toList cells

/-- `f"## Sheet: {sheet.title}"`. -/
def xlsxHeading (title : List Char) : List Char := "## Sheet: ".toList ++ title

/-- The heading that is repeated. -/
def xlsxContinuedHeading (title : List Char) : List Char :=
  xlsxHeading title ++ " (continued)".toList

section

variable (columnLetter : Nat → List Char) (anchors : List (List Char × List Char))
  (sheet : XlsxSheet)

/-- `sheet.min_row or 1`. -/
def XlsxSheet.firstRow : Nat := if sheet.minRow.getD 0 = 0 then 1 else sheet.minRow.getD 0

/-- `sheet.min_column or 1`. -/
def XlsxSheet.firstColumn : Nat := if sheet.minColumn.getD 0 = 0 then 1 else sheet.minColumn.getD 0

/-- A line is put out, behind the heading and the header row where they are due. -/
def XlsxState.addLine (s : XlsxState) (line : List Char) : XlsxState :=
  let continuedHeading := xlsxContinuedHeading sheet.title
  match s.headerLine with
  | none =>
    { s with
      totals := { s.totals with chars := s.totals.chars + line.length, anyData := true }
      sheetLines := s.sheetLines ++ [line]
      headerLine := some line
      rowsSinceHeading := s.rowsSinceHeading + 1
      rowNumber := s.rowNumber + 1 }
  | some header =>
    if xlsxHeaderRepeatRows ≤ s.rowsSinceHeading then
      { s with
        totals := { s.totals with
          chars := s.totals.chars + (continuedHeading.length + header.length) + line.length
          anyData := true }
        sheetLines := s.sheetLines ++ [continuedHeading, header, line]
        rowsSinceHeading := 1
        rowNumber := s.rowNumber + 1 }
    else
      { s with
        totals := { s.totals with chars := s.totals.chars + line.length, anyData := true }
        sheetLines := s.sheetLines ++ [line]
        rowsSinceHeading := s.rowsSinceHeading + 1
        rowNumber := s.rowNumber + 1 }

/-- One round of the loop over the rows. -/
def xlsxRow (s : XlsxState) (row : List CellValue) : Except ApplicationError XlsxState :=
  let totals := { s.totals with cells := s.totals.cells + row.length }
  let s := { s with totals := totals }
  if maxXlsxCells < totals.cells then
    .error ⟨"XlsxCellCapExceeded", "XLSX extraction failed: evaluated-cell cap (500000) exceeded " ++
      "while reading sheet '" ++ String.ofList sheet.title ++
      "'. Split the workbook into smaller files and re-upload."⟩
  else if isBlankRow row = true then .ok { s with rowNumber := s.rowNumber + 1 }
  else
    let s := s.addLine sheet
      (rowLine (renderedCells columnLetter anchors sheet.firstColumn s.rowNumber row))
    if maxXlsxTextChars < s.totals.chars then
      .error ⟨"XlsxTextCapExceeded", "XLSX extraction failed: extracted text exceeds the " ++
        "5000000-character cap (hit while reading sheet '" ++ String.ofList sheet.title ++
        "'). Split the workbook into smaller files and re-upload."⟩
    else .ok s

/-- The state before the rows of a sheet. -/
def xlsxStart (totals : XlsxTotals) : XlsxState where
  totals := { totals with chars := totals.chars + (xlsxHeading sheet.title).length }
  sheetLines := [xlsxHeading sheet.title]
  rowNumber := sheet.firstRow

/-- The loop over the rows of a sheet. -/
def xlsxRows (totals : XlsxTotals) (rows : List (List CellValue)) :
    Except ApplicationError XlsxState :=
  rows.foldlM (xlsxRow columnLetter anchors sheet) (xlsxStart sheet totals)

end

/-! ## Workbooks -/

/-- The loop over the sheets: `sheet_parts`, and the totals behind each sheet. -/
def xlsxSheets (columnLetter : Nat → List Char)
    (anchorsOf : XlsxSheet → List (List Char × List Char)) :
    XlsxTotals → List XlsxSheet → Except ApplicationError (List (List Char) × XlsxTotals)
  | totals, [] => .ok ([], totals)
  | totals, sheet :: sheets => do
    let s ← xlsxRows columnLetter (anchorsOf sheet) sheet totals sheet.rows
    let (parts, totals) ← xlsxSheets columnLetter anchorsOf s.totals sheets
    return (PyStr.join ['\n'] s.sheetLines :: parts, totals)

/-- `_extract_xlsx_text`. -/
def extractXlsxText (reader : XlsxReader) (content : List UInt8) :
    Except ApplicationError (List Char) := do
  let sheets ← (reader.loadWorkbook content).mapError fun e =>
    ⟨"XlsxOpenFailed", "XLSX extraction failed: could not open workbook (" ++ e.1 ++ ": " ++ e.2 ++
      "). The file may be corrupt, truncated, password-protected, or not actually an XLSX " ++
      "despite its declared type."⟩
  let anchorsOf := fun sheet : XlsxSheet => xlsxMergeAnchors reader content sheet.worksheetPath
  let (parts, totals) ← xlsxSheets reader.columnLetter anchorsOf {} sheets
  if totals.anyData = true then return PyStr.join "\n\n".toList parts else return []

end Inherent
