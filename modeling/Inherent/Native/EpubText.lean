import Inherent.Native.Package
import Inherent.Native.PyUrl

/-!
# Text of EPUB books

`_extract_epub_text` (`temporal/activities/extract.py`): the container names the OPF file, its
manifest maps ids to files, and its spine is the reading order.  A chapter that cannot be read
leaves a gap; the others keep their positions in the spine.
-/

namespace PyStr

/-- `text.split()`. -/
def words (text : List Char) : List (List Char) :=
  (text.splitOnP isSpace).filter (· ≠ [])

end PyStr

namespace Inherent

/-- A name of `_EPUB_CONTAINER_NS`. -/
def epubContainerName (name : String) : String :=
  "{urn:oasis:names:tc:opendocument:xmlns:container}" ++ name

/-- A name of `_EPUB_OPF_NS`. -/
def opfName (name : String) : String := "{http://www.idpf.org/2007/opf}" ++ name

/-- What BeautifulSoup makes of a chapter: `_extract_html_text` and `_epub_chapter_heading`. -/
structure ChapterReader where
  text : List UInt8 → List Char
  heading : List UInt8 → Option (List Char)

/-- The item of the manifest: a later one replaces an earlier one with its id. -/
def manifestItem? (opfRoot : Element) (idref : List Char) : Option Element :=
  ((opfRoot.findall (opfName "manifest") (opfName "item")).filter fun item =>
    item.get "id" = some idref).getLast?

/-- The references of the spine. -/
def spineItems (opfRoot : Element) : List Element :=
  opfRoot.findall (opfName "spine") (opfName "itemref")

/-- An item whose properties are those of a navigation document or a cover. -/
def isNavOrCover (item : Element) : Bool :=
  let properties := PyStr.words ((item.get "properties").getD [])
  properties.contains "nav".toList || properties.contains "cover-image".toList

/-- The media types of chapters. -/
def isMarkup (item : Element) : Bool :=
  item.get "media-type" == some "application/xhtml+xml".toList ||
    item.get "media-type" == some "text/html".toList

/-- The item of a reference, if it is a chapter. -/
def chapterItem? (opfRoot itemref : Element) : Option Element :=
  (manifestItem? opfRoot ((itemref.get "idref").getD [])).filter fun item =>
    !isNavOrCover item && isMarkup item

/-- `opf_dir`. -/
def opfDir (opfPath : List Char) : List Char :=
  if '/' ∈ opfPath then PyStr.join ['/'] (opfPath.splitOn '/').dropLast ++ ['/'] else []

/-- `item.get("href", "")`. -/
def itemHref (item : Element) : List Char := (item.get "href").getD []

/-- The name that a chapter is read by. -/
def memberName (opfPath : List Char) (item : Element) : List Char :=
  opfDir opfPath ++ PyStr.unquote (itemHref item)

/-- The text of a chapter under its heading; a chapter without one is named by its position. -/
def labelledChapter (reader : ChapterReader) (position : Nat) (bytes : List UInt8) :
    Option (List Char) :=
  let text := PyStr.strip (reader.text bytes)
  if text = [] then none
  else
    let heading := match reader.heading bytes with
      | none | some [] => "Chapter ".toList ++ PyStr.ofNat position
      | some heading => heading
    some ("## ".toList ++ heading ++ "\n\n".toList ++ text)

section

variable (reader : ChapterReader) (archive : ZipArchive) (opfPath : List Char) (opfRoot : Element)

/-- One round of the loop over the spine: the chapter, or `none` where it is skipped. -/
def epubChapter (itemref : Element) (position : Nat) :
    Except ExtractError (Option (Nat × List Char)) :=
  match chapterItem? opfRoot itemref with
  | none => .ok none
  | some item =>
    match archive.read (String.ofList (memberName opfPath item)) with
    | .error .keyError => .ok none
    | .error (.badZipFile e) => .error (.badZipFile e)
    | .ok bytes => .ok ((labelledChapter reader position bytes).map (position, ·))

/-- `chapters`. -/
def epubChapters : Except ExtractError (List (Nat × List Char)) :=
  (((spineItems opfRoot).zipIdx 1).mapM fun p =>
    epubChapter reader archive opfPath opfRoot p.1 p.2).map fun chapters =>
      chapters.filterMap id

/-- The error of `_extract_epub_text`. -/
def epubError (type filename message : String) : ExtractError :=
  .application ⟨type, "EPUB extraction failed: '" ++ filename ++ "' " ++ message⟩

/-- `_extract_epub_text` from the parsed OPF file on. -/
def epubText (filename : String) : Except ExtractError (List Char) := do
  if spineItems opfRoot = [] then
    .error (epubError "EpubNoSpine" filename "has no spine -- cannot determine reading order")
  else
    let chapters ← epubChapters reader archive opfPath opfRoot
    if chapters = [] then
      .error (epubError "EpubNoExtractableContent" filename
        "has a spine but no chapter produced any extractable text")
    else .ok (PyStr.join "\n\n".toList (chapters.map Prod.snd))

end

/-- `_extract_epub_text`. -/
def extractEpubText (packages : PackageReader) (reader : ChapterReader) (content : List UInt8)
    (filename : String) : Except ExtractError (List Char) := do
  let fail (type message : String) : ExtractError := epubError type filename message
  -- `read` raises `BadZipFile` here too, and nothing catches it
  let readOr (archive : ZipArchive) (name : String) (missing : ExtractError) :
      Except ExtractError (List UInt8) :=
    (archive.read name).mapError fun
      | .keyError => missing
      | .badZipFile e => .badZipFile e
  let archive ← (packages.openZip content).mapError fun e =>
    fail "EpubCorruptZip" ("is not a valid EPUB (corrupt zip archive): " ++ e)
  if "META-INF/encryption.xml" ∈ archive.namelist then
    .error (fail "EpubDrmProtected" "is a DRM-protected/encrypted EPUB and cannot be extracted.")
  let containerXml ← readOr archive "META-INF/container.xml"
    (fail "EpubMissingContainerXml" "is not a valid EPUB: missing META-INF/container.xml")
  let containerRoot ← (packages.fromstring containerXml).mapError fun e =>
    fail "EpubUnparseableContainerXml" ("has an unparseable META-INF/container.xml: " ++ e)
  let some opfPath := (containerRoot.find? (epubContainerName "rootfile")).bind fun rootfile =>
      rootfile.get "full-path"
    | .error (fail "EpubNoRootfile" "is not a valid EPUB: no rootfile declared")
  let opfXml ← readOr archive (String.ofList opfPath)
    (fail "EpubMissingContentOpf" ("is not a valid EPUB: declared content.opf '" ++
      String.ofList opfPath ++ "' is missing"))
  let opfRoot ← (packages.fromstring opfXml).mapError fun e =>
    fail "EpubUnparseableContentOpf" ("has an unparseable content.opf: " ++ e)
  epubText reader archive opfPath opfRoot filename

end Inherent
