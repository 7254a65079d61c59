import Inherent.Native.Package
import Inherent.Native.PyLines
import Inherent.Native.PyNumbers

/-!
# Text of ODT documents

`_extract_odt_text` (`temporal/activities/extract.py`): the walk over `content.xml` that leaves
out tracked changes and annotations, and the lines that are made of its fragments.
-/

namespace Inherent

/-- A name of the `office` namespace, as ElementTree writes it. -/
def odfOffice (name : String) : String :=
  "{urn:oasis:names:tc:opendocument:xmlns:office:1.0}" ++ name

/-- A name of the `text` namespace. -/
def odfText (name : String) : String :=
  "{urn:oasis:names:tc:opendocument:xmlns:text:1.0}" ++ name

/-- `_ODF_EXCLUDED_TAGS`. -/
def odfExcluded (tag : String) : Bool :=
  tag == odfText "tracked-changes" || tag == odfOffice "annotation"

/-- `_ODF_PARAGRAPH_TAGS`. -/
def odfParagraph (tag : String) : Bool := tag == odfText "p" || tag == odfText "h"

/-- `_ODF_SPACE_TAG`. -/
def odfSpaceTag : String := odfText "s"

/-- `_ODF_TAB_TAG`. -/
def odfTabTag : String := odfText "tab"

/-- The blanks of a `text:s`: `int` raises on a count that is no number. -/
def odfSpaces (attrib : List (String × List Char)) : Except ExtractError (List Char) :=
  let count := match attrib.lookup (odfText "c") with
    | none | some [] => ['1']
    | some count => count
  match PyStr.int? count with
  | some n => .ok (List.replicate n.toNat ' ')
  | none => .error (.valueError count)

/-- A fragment that is collected unless it is empty. -/
def odfFragment (text : List Char) : List (List Char) := if text = [] then [] else [text]

mutual

/-- `_odf_extract_text`. -/
def odfExtractText : Element → Except ExtractError (List (List Char))
  | .mk tag attrib text children _ =>
    if odfExcluded tag then .ok []
    else if tag = odfSpaceTag then (odfSpaces attrib).map fun blanks => [blanks]
    else if tag = odfTabTag then .ok [['\t']]
    else do
      let inner ← odfExtractChildren children
      .ok (odfFragment text ++ inner ++ if odfParagraph tag then [['\n']] else [])

/-- The loop over the children. -/
def odfExtractChildren : List Element → Except ExtractError (List (List Char))
  | [] => .ok []
  | child :: children => do
    let own ← odfExtractText child
    let rest ← odfExtractChildren children
    .ok (own ++ odfFragment child.tail ++ rest)

end

/-- The lines of the fragments, blank ones left out. -/
def odfLines (raw : List Char) : List Char :=
  PyStr.join ['\n'] (((PyStr.splitlines raw).map PyStr.strip).filter (· ≠ []))

/-- The text of the `office:text` element. -/
def odtBodyText (body : Element) : Except ExtractError (List Char) :=
  (odfExtractText body).map fun fragments => odfLines fragments.flatten

section

variable (reader : PackageReader)

/-- `_extract_odt_text`. -/
def extractOdtText (content : List UInt8) (filename : String) :
    Except ExtractError (List Char) := do
  let fail (type message : String) : ExtractError :=
    .application ⟨type, "ODT extraction failed: '" ++ filename ++ "' " ++ message⟩
  let archive ← (reader.openZip content).mapError fun e =>
    fail "OdtCorruptZip" ("is not a valid ODT (corrupt zip archive): " ++ e)
  let contentXml ← (archive.read "content.xml").mapError fun
    | .keyError =>
      fail "OdtMissingContentXml" ("is not a valid ODT: no content.xml found in the archive " ++
        "(the file may be a different ZIP-based format, e.g. DOCX, saved with an .odt extension)")
    | .badZipFile e =>
      fail "OdtCorruptZip" ("is not a valid ODT (corrupt zip central directory): " ++ e)
  let root ← (reader.fromstring contentXml).mapError fun e =>
    fail "OdtUnparseableContentXml" ("has an unparseable content.xml: " ++ e)
  let some body := (root.findall (odfOffice "body") (odfOffice "text")).head?
    | .error (fail "OdtMissingBody"
        "is not a valid ODT: no office:body/office:text found in content.xml")
  let text ← odtBodyText body
  if text = [] then
    .error (fail "OdtNoExtractableContent" "produced no extractable text from content.xml")
  else .ok text

end

end Inherent
