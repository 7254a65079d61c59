import Inherent.ForStd.CollapsedRuns
import Inherent.Native.PyLines

/-!
# Extracted texts

The tables of a DOCX document and the pages of a PDF document as the text that is chunked.
-/

/-!
## Tables of DOCX documents

`_docx_escape_table_cell` and `_docx_table_to_markdown` (`temporal/activities/extract.py`), on the
texts of the cells.
-/

namespace Inherent

/-- `_docx_escape_table_cell`. -/
def docxEscapeTableCell (text : List Char) : List Char :=
  PyStr.strip (PyStr.replaceChar '\n' [' '] (PyStr.replaceChar '|' ['\\', '|'] text))

/-- `"| " + " | ".join(cells) + " |"`. -/
def markdownRow (cells : List (List Char)) : List Char :=
  "| ".toList ++ PyStr.join " | ".toList cells ++ " |".toList

/-- `_docx_table_to_markdown`. -/
def docxTableToMarkdown : List (List (List Char)) → List Char
  | [] => []
  | header :: rows =>
    PyStr.join ['\n'] (markdownRow (header.map docxEscapeTableCell) ::
      markdownRow (header.map fun _ => "---".toList) ::
      rows.map fun row => markdownRow (row.map docxEscapeTableCell))

example : docxTableToMarkdown [["a|b".toList, " c\n".toList], ["\\".toList, []]] =
    "| a\\|b | c |\n| --- | --- |\n| \\ |  |".toList := by
  decide

end Inherent

/-!
## The text of PDF pages

`_normalize_pdf_page_text` of `src/services/inh-ingestion-svc/src/temporal/activities/extract.py`:
what becomes of the text that is read from a page.
-/

namespace Inherent

open Substitution (Matcher)

/-- The length of a hyphen and a line break before a lower case letter. -/
def hyphenLinebreak : List Char → Option Nat
  | '-' :: '\n' :: c :: _ => if c.isLower = true then some 2 else none
  | _ => none

theorem hyphenLinebreak_eq_some {xs : List Char} {n : Nat} (h : hyphenLinebreak xs = some n) :
    n = 2 ∧ ∃ c rest, xs = '-' :: '\n' :: c :: rest ∧ c.isLower = true := by
  unfold hyphenLinebreak at h
  split at h
  · rename_i c rest
    split at h
    · cases h
      exact ⟨rfl, c, rest, rfl, ‹_›⟩
    · cases h
  · cases h

/-- `_PDF_HYPHEN_LINEBREAK_RE`. -/
def pdfHyphenLinebreak : Matcher Char where
  find prev xs := if prev.any Char.isLower = true then hyphenLinebreak xs else none
  bounds prev xs n h := by
    split at h
    · obtain ⟨rfl, c, rest, rfl, -⟩ := hyphenLinebreak_eq_some h
      simp
    · cases h

/-- A blank or a tab. -/
def isHorizontal (c : Char) : Bool := c == ' ' || c == '\t'

/-- `re.sub(r"[ \t]+", " ", line).rstrip()`. -/
def normalizePdfLine (line : List Char) : List Char :=
  PyStr.rstrip (CollapsedRuns.collapse isHorizontal ' ' line)

/-- `_normalize_pdf_page_text`. -/
def normalizePdfPageText (text : List Char) : List Char :=
  PyStr.join ['\n'] (((pdfHyphenLinebreak.sub [] text).splitOn '\n').map normalizePdfLine)

end Inherent
