import Inherent.ForStd.ElementTree

/-!
# ZIP packages of XML

What the extractors of EPUB, ODT and XLSX files use of `zipfile` and `xml.etree.ElementTree`,
and the error that they raise.
-/

namespace Inherent

/-- `ApplicationError` (`temporalio.exceptions`); all of the extractors' are
    `non_retryable=True`. -/
structure ApplicationError where
  type : String
  message : String
  deriving DecidableEq, Repr

/-- An exception of an extractor: its own `ApplicationError`, or one that it does not catch. -/
inductive ExtractError where
  | application (e : ApplicationError)
  | valueError (argument : List Char)
  | badZipFile (message : String)
  deriving DecidableEq, Repr

/-- How `ZipFile.read` fails. -/
inductive ZipReadError where
  | keyError
  | badZipFile (message : String)
  deriving DecidableEq, Repr

/-- An open archive. -/
structure ZipArchive where
  namelist : List String
  read : String → Except ZipReadError (List UInt8)

/-- The archive with the given members: of two with one name, the last one is found. -/
def ZipArchive.ofMembers (members : List (String × List UInt8)) : ZipArchive where
  namelist := members.map Prod.fst
  read name :=
    match members.reverse.lookup name with
    | some bytes => .ok bytes
    | none => .error .keyError

/-- `zipfile.ZipFile` and `ET.fromstring`; a failure gives the text of the `BadZipFile` or
    `ParseError`. -/
structure PackageReader where
  openZip : List UInt8 → Except String ZipArchive
  fromstring : List UInt8 → Except String Element

/-- A loop in which nothing fails. -/
theorem mapM_ok {ε α β : Type} {g : α → Except ε β} {h : α → β} {l : List α}
    (hl : ∀ a ∈ l, g a = .ok (h a)) : l.mapM g = .ok (l.map h) := by
  induction l with
  | nil => rfl
  | cons a l ih =>
    rw [List.mapM_cons, hl a List.mem_cons_self, ih fun b hb => hl b (List.mem_cons_of_mem _ hb)]
    rfl

end Inherent
