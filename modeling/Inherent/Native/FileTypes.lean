import Inherent.Native.ChunkDispatch

/-!
# The registry of file types and the sniffer

`FILE_TYPE_REGISTRY`, `get_spec_for_mime` and `sniff_content_type` of
`src/services/inh-contracts/src/inh_contracts/file_types.py`, on the bytes of a file.
-/

namespace Inherent.Registry

/-! ## The registry -/

/-- `FileTypeSpec`, as far as the sniffer reads it. -/
structure FileTypeSpec where
  key : String
  mimeTypes : List String
  magic : Option (List UInt8) := none
  magicAnchorWindow : Option Nat := none
  deriving DecidableEq, Repr

/-- `b"%PDF-"`. -/
def pdfMagic : List UInt8 := [0x25, 0x50, 0x44, 0x46, 0x2d]

/-- `b"PK\x03\x04"`. -/
def zipMagic : List UInt8 := [0x50, 0x4b, 0x03, 0x04]

/-- `b"\x89PNG\r\n\x1a\n"`. -/
def pngMagic : List UInt8 := [0x89, 0x50, 0x4e, 0x47, 0x0d, 0x0a, 0x1a, 0x0a]

/-- `b"{\\rtf"`. -/
def rtfMagic : List UInt8 := [0x7b, 0x5c, 0x72, 0x74, 0x66]

/-- `FILE_TYPE_REGISTRY`. -/
def fileTypeRegistry : List FileTypeSpec :=
  [{ key := "txt", mimeTypes := ["text/plain"] },
   { key := "markdown", mimeTypes := ["text/markdown"] },
   { key := "csv", mimeTypes := ["text/csv"] },
   { key := "html", mimeTypes := ["text/html"] },
   { key := "pdf", mimeTypes := ["application/pdf"], magic := some pdfMagic },
   { key := "json", mimeTypes := ["application/json"] },
   { key := "docx",
     mimeTypes := ["application/vnd.openxmlformats-officedocument.wordprocessingml.document"],
     magic := some zipMagic },
   { key := "xlsx",
     mimeTypes := ["application/vnd.openxmlformats-officedocument.spreadsheetml.sheet"],
     magic := some zipMagic },
   { key := "pptx",
     mimeTypes := ["application/vnd.openxmlformats-officedocument.presentationml.presentation"],
     magic := some zipMagic },
   { key := "png", mimeTypes := ["image/png"], magic := some pngMagic },
   { key := "eml", mimeTypes := ["message/rfc822"] },
   { key := "epub", mimeTypes := ["application/epub+zip"], magic := some zipMagic },
   { key := "rtf", mimeTypes := ["application/rtf", "text/rtf"], magic := some rtfMagic,
     magicAnchorWindow := some 8 },
   { key := "odt", mimeTypes := ["application/vnd.oasis.opendocument.text"],
     magic := some zipMagic },
   { key := "yaml", mimeTypes := ["application/yaml", "text/yaml"] },
   { key := "toml", mimeTypes := ["application/toml"] },
   { key := "xml", mimeTypes := ["application/xml", "text/xml"] },
   { key := "code",
     mimeTypes := ["text/x-python", "application/javascript", "text/javascript",
       "application/typescript", "text/x-go", "text/x-java-source", "text/x-rustsrc",
       "text/x-csrc", "text/x-chdr", "text/x-c++src", "text/x-csharp", "text/x-ruby",
       "text/x-php", "text/x-swift", "text/x-kotlin", "text/x-scala", "application/x-sh",
       "text/x-sh", "application/sql", "text/x-sql", "text/x-r-source", "text/x-lua"] },
   { key := "srt", mimeTypes := ["application/x-subrip"] },
   { key := "vtt", mimeTypes := ["text/vtt"] }]

/-- `mime_type.split(";", 1)[0].strip().lower()`. -/
def normalizeMime (mimeType : String) : String :=
  let declared := PyStr.strip (mimeType.toList.takeWhile fun c => c ≠ ';')
  String.ofList (declared.map lowerChar)

/-- `get_spec_for_mime`. -/
def getSpecForMime (mimeType : String) : Option FileTypeSpec :=
  fileTypeRegistry.find? fun spec => decide (normalizeMime mimeType ∈ spec.mimeTypes)

/-! ## The sniffer -/

/-- `_SNIFF_WINDOW`. -/
def sniffWindow : Nat := 1024

/-- The window that a signature is searched in: `magic_anchor_window`, or the common one. -/
def FileTypeSpec.window (spec : FileTypeSpec) : Nat := spec.magicAnchorWindow.getD sniffWindow

/-- `_contains_signature`. -/
def containsSignature (content magic : List UInt8) (window : Nat) : Bool :=
  decide (magic <:+: content.take window)

/-- `_magic_families_overlap`. -/
def magicFamiliesOverlap (a b : List UInt8) : Bool := b.isPrefixOf a || a.isPrefixOf b

/-- `UnknownContentTypeError` and `ContentTypeMismatchError`. -/
inductive SniffError where
  | unknownContentType (declaredMime : String)
  | contentTypeMismatch (declaredMime reason : String)
  deriving DecidableEq, Repr

/-- The reason of a mismatch with the type's own signature. -/
def ownReason (spec : FileTypeSpec) : String :=
  "expected the '" ++ spec.key ++ "' file signature but the bytes did not match it"

/-- The reason of a match with another type's signature. -/
def otherReason (other : FileTypeSpec) : String :=
  "the bytes match the '" ++ other.key ++ "' file signature instead"

/-- The body of the loop over the registry: whether it raises at `other`. -/
def contradicts (content : List UInt8) (spec other : FileTypeSpec) : Bool :=
  match other.magic with
  | none => false
  | some magic =>
    if other.key = spec.key then false
    else if spec.magic.any (magicFamiliesOverlap · magic) then false
    else containsSignature content magic other.window

/-- `sniff_content_type`. -/
def sniffContentType (content : List UInt8) (declaredMime : String)
    (resolvedSpec : Option FileTypeSpec := none) : Except SniffError FileTypeSpec :=
  match resolvedSpec.or (getSpecForMime declaredMime) with
  | none => .error (.unknownContentType declaredMime)
  | some spec =>
    if spec.magic.any (fun magic => !containsSignature content magic spec.window) then
      .error (.contentTypeMismatch declaredMime (ownReason spec))
    else
      match fileTypeRegistry.find? (contradicts content spec) with
      | some other => .error (.contentTypeMismatch declaredMime (otherReason other))
      | none => .ok spec

/-! ## What the registry guarantees -/

/-- Normalising keeps a name of lower-case letters without spaces or parameters. -/
theorem normalizeMime_ofList {name : List Char}
    (h : name.all (fun c => decide (lowerChar c = c ∧ c ≠ ';') && !PyStr.isSpace c) = true) :
    normalizeMime (String.ofList name) = String.ofList name := by
  simp only [List.all_eq_true, Bool.and_eq_true, decide_eq_true_eq, Bool.not_eq_true'] at h
  have hdeclared : name.takeWhile (fun c => c ≠ ';') = name := by
    rw [List.takeWhile_eq_self_iff]
    intro c hc
    simpa using (h c hc).1.2
  have hstrip : PyStr.strip name = name :=
    PyStr.strip_of_ends (fun c hc => (h c (List.mem_of_mem_head? hc)).2)
      (fun c hc => (h c (List.mem_of_mem_getLast? hc)).2)
  have hlower : name.map lowerChar = name := by
    rw [List.map_congr_left fun c hc => (h c hc).1.1, List.map_id']
  rw [normalizeMime, String.toList_ofList, hdeclared, hstrip, hlower]

/-- The MIME types of the registry are normalised. -/
theorem normalizeMime_registered :
    ∀ mime ∈ fileTypeRegistry.flatMap FileTypeSpec.mimeTypes, normalizeMime mime = mime := by
  have hnames : ∀ mime ∈ fileTypeRegistry.flatMap FileTypeSpec.mimeTypes,
      ∃ name : List Char, mime = String.ofList name ∧
        name.all (fun c => decide (lowerChar c = c ∧ c ≠ ';') && !PyStr.isSpace c) = true := by
    simp only [fileTypeRegistry, List.flatMap_cons, List.flatMap_nil, List.cons_append,
      List.nil_append, List.append_nil, List.forall_mem_cons]
    and_intros
    all_goals first | exact ⟨_, rfl, by decide⟩ | simp
  intro mime hmime
  obtain ⟨name, rfl, hname⟩ := hnames mime hmime
  exact normalizeMime_ofList hname

/-- No MIME type is in two entries. -/
theorem nodup_mimeTypes : (fileTypeRegistry.flatMap FileTypeSpec.mimeTypes).Nodup := by
  simp [fileTypeRegistry]

/-- Every MIME type of an entry resolves to that entry. -/
theorem getSpecForMime_of_mem {spec : FileTypeSpec} (hspec : spec ∈ fileTypeRegistry)
    {mime : String} (hmime : mime ∈ spec.mimeTypes) : getSpecForMime mime = some spec := by
  have hnormal : normalizeMime mime = mime :=
    normalizeMime_registered mime (List.mem_flatMap.mpr ⟨spec, hspec, hmime⟩)
  have hunique : ∀ other ∈ fileTypeRegistry, mime ∈ other.mimeTypes → other = spec := by
    intro other hother hmem
    by_contra hne
    have hsymm : Std.Symm (Function.onFun List.Disjoint FileTypeSpec.mimeTypes) :=
      ⟨fun _ _ h => List.Disjoint.symm h⟩
    exact (List.nodup_flatMap.mp nodup_mimeTypes).2.forall hother hspec hne hmem hmime
  rw [getSpecForMime, hnormal]
  cases hfind : fileTypeRegistry.find? fun spec => decide (mime ∈ spec.mimeTypes) with
  | none =>
    have := List.find?_eq_none.mp hfind spec hspec
    simp [hmime] at this
  | some other =>
    have hmem := List.find?_some hfind
    rw [hunique other (List.mem_of_find?_eq_some hfind) (of_decide_eq_true hmem)]

/-- A signature fits into its window. -/
theorem length_magic_le {spec : FileTypeSpec} (hspec : spec ∈ fileTypeRegistry)
    {magic : List UInt8} (hmagic : spec.magic = some magic) : magic.length ≤ spec.window := by
  have hall : ∀ spec ∈ fileTypeRegistry, ∀ magic ∈ spec.magic, magic.length ≤ spec.window := by
    decide
  exact hall spec hspec magic hmagic

/-- Two signatures are of one family, or of two types with one key, only if they are equal. -/
theorem magic_eq_of_overlap {spec other : FileTypeSpec} (hspec : spec ∈ fileTypeRegistry)
    (hother : other ∈ fileTypeRegistry) {a b : List UInt8} (ha : spec.magic = some a)
    (hb : other.magic = some b) (h : magicFamiliesOverlap a b = true ∨ other.key = spec.key) :
    a = b := by
  have hall : ∀ spec ∈ fileTypeRegistry, ∀ other ∈ fileTypeRegistry, ∀ a ∈ spec.magic,
      ∀ b ∈ other.magic, magicFamiliesOverlap a b = true ∨ other.key = spec.key → a = b := by
    decide
  exact hall spec hspec other hother a ha b hb h

end Inherent.Registry
