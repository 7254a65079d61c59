import Inherent.ForStd.DotSegments
import Inherent.Native.EpubText

/-!
# The chapters of an EPUB book

A manifest refers to its files by URLs.  `resolveHref` resolves one against the place of the
OPF file; `_extract_epub_text` puts the decoded reference behind the directory instead.  A
chapter is kept when both name a member with the same chapter (`epubKeeps_iff`), and always
where the reference has no more than segments in it (`resolveHref_of_plain`).
-/

namespace Inherent

/-! ## References of a manifest -/

/-- A reference that begins with a scheme. -/
def hasScheme (ref : List Char) : Bool :=
  let scheme := ref.takeWhile fun c => c.isAlphanum || c == '+' || c == '-' || c == '.'
  (scheme.head?.any Char.isAlpha) && ref[scheme.length]? == some ':'

def isHereSegment (s : List Char) : Bool := s == ['.']

def isUpSegment (s : List Char) : Bool := s == ['.', '.']

/-- The segments of the directory of the OPF file, the deepest first. -/
def opfSegments (opfPath : List Char) : List (List Char) :=
  (opfPath.splitOn '/').dropLast.reverse

/-- The path of a reference from a directory: its segments are decoded and followed; a path
    that ends with a dot segment names a directory. -/
def followHref (dir : List (List Char)) (ref : List Char) : List Char :=
  let segments := (ref.splitOn '/').map PyStr.unquote
  let names := DotSegments.walk isHereSegment isUpSegment dir segments
  let last := segments.getLast?.filter fun s => isHereSegment s || isUpSegment s
  PyStr.join ['/'] ((if last = none then names else [] :: names).reverse)

/-- The member of the archive that a reference of the manifest names: a reference with a scheme
    or an authority is none of the archive, and its query and fragment do not count. -/
def resolveHref (opfPath href : List Char) : Option (List Char) :=
  let ref := href.takeWhile fun c => c ≠ '?' ∧ c ≠ '#'
  if hasScheme ref ∨ PyStr.startsWith ref "//".toList then none
  else if ref = [] then some opfPath
  else if PyStr.startsWith ref ['/'] then some (followHref [] (ref.drop 1))
  else some (followHref (opfSegments opfPath) ref)

/-- A reference of segments only. -/
structure PlainHref (href : List Char) : Prop where
  ne_nil : href ≠ []
  noQuery : '?' ∉ href ∧ '#' ∉ href
  noScheme : hasScheme href = false
  relative : PyStr.startsWith href ['/'] = false
  noDots : ∀ s ∈ href.splitOn '/',
    isHereSegment (PyStr.unquote s) = false ∧ isUpSegment (PyStr.unquote s) = false

/-- The segments of a text are those of its parts. -/
theorem unquote_join (segments : List (List Char)) :
    PyStr.unquote (PyStr.join ['/'] segments) =
      PyStr.join ['/'] (segments.map PyStr.unquote) := by
  induction segments with
  | nil => rfl
  | cons s segments ih =>
    cases segments with
    | nil => simp [PyStr.join]
    | cons t segments =>
      simp only [PyStr.join, List.map_cons, List.intercalate_cons_cons, List.append_assoc,
        List.singleton_append] at ih ⊢
      rw [PyStr.unquote_append_slash, ih]

theorem opfDir_eq (opfPath : List Char) {path : List (List Char)} (hpath : path ≠ []) :
    PyStr.join ['/'] ((opfPath.splitOn '/').dropLast ++ path) =
      opfDir opfPath ++ PyStr.join ['/'] path := by
  unfold opfDir
  split
  · next hslash =>
    -- the OPF file stands in a directory
    obtain ⟨before, rest, hcut⟩ := List.append_of_mem hslash
    have hdir : (opfPath.splitOn '/').dropLast ≠ [] := by
      rw [hcut, List.splitOn_append_cons_self, List.dropLast_append_of_ne_nil (by simp)]
      simp
    exact PyStr.join_append hdir hpath
  · next hslash =>
    rw [List.splitOn_eq_singleton hslash]
    rfl

/-- A reference of segments is where the directory and the decoded reference lead. -/
theorem resolveHref_of_plain (opfPath : List Char) {href : List Char} (h : PlainHref href) :
    resolveHref opfPath href = some (opfDir opfPath ++ PyStr.unquote href) := by
  have href_eq : href.takeWhile (fun c => c ≠ '?' ∧ c ≠ '#') = href := by
    rw [List.takeWhile_eq_self_iff]
    intro c hc
    have := h.noQuery
    grind
  have hauthority : PyStr.startsWith href "//".toList = false := by
    have := h.relative
    cases href with
    | nil => rfl
    | cons c rest =>
      simp only [PyStr.startsWith, String.reduceToList, List.isPrefixOf] at this ⊢
      grind
  have hnames : ∀ s ∈ (href.splitOn '/').map PyStr.unquote,
      isHereSegment s = false ∧ isUpSegment s = false := by
    intro s hs
    obtain ⟨t, ht, rfl⟩ := List.mem_map.mp hs
    exact h.noDots t ht
  -- the path does not end with a dot segment, so it names a file
  have hlast : (((href.splitOn '/').map PyStr.unquote).getLast?.filter fun s =>
      isHereSegment s || isUpSegment s) = none := by
    rw [Option.filter_eq_none_iff]
    intro s hs
    have := hnames s (List.mem_of_getLast? hs)
    simp [this.1, this.2]
  have hsegments : PyStr.join ['/'] (href.splitOn '/') = href := List.intercalate_splitOn _
  -- what is left is the case of a relative reference
  unfold resolveHref
  simp only [href_eq]
  rw [h.noScheme, hauthority, h.relative]
  simp only [Bool.false_eq_true, or_self, if_false, if_neg h.ne_nil]
  unfold followHref
  simp only [hlast, if_true]
  rw [DotSegments.walk_of_names hnames, List.reverse_append, List.reverse_reverse, opfSegments,
    List.reverse_reverse, opfDir_eq _ (by simp), ← unquote_join, hsegments]

/-! ## The chapters of the spine -/

section

variable (reader : ChapterReader) (members : List (String × List UInt8)) (opfPath : List Char)
  (opfRoot : Element)

/-- The chapter of a reference of the spine, its file looked up under `name`. -/
def chapterUnder? (name : Element → Option (List Char)) (itemref : Element) (position : Nat) :
    Option (List Char) := do
  let item ← chapterItem? opfRoot itemref
  let bytes ← members.reverse.lookup (String.ofList (← name item))
  labelledChapter reader position bytes

/-- The chapter that a reference of the spine stands for. -/
def wantedChapter? (itemref : Element) (position : Nat) : Option (List Char) :=
  chapterUnder? reader members opfRoot (fun item => resolveHref opfPath (itemHref item))
    itemref position

/-- A package with these members opens, and leads to this OPF file. -/
structure EpubOpens (packages : PackageReader) (content : List UInt8) : Prop where
  openZip : packages.openZip content = .ok (ZipArchive.ofMembers members)
  notEncrypted : "META-INF/encryption.xml" ∉ members.map Prod.fst
  container : ∃ containerXml containerRoot rootfile,
    (ZipArchive.ofMembers members).read "META-INF/container.xml" = .ok containerXml ∧
      packages.fromstring containerXml = .ok containerRoot ∧
      containerRoot.find? (epubContainerName "rootfile") = some rootfile ∧
      rootfile.get "full-path" = some opfPath
  opf : ∃ opfXml, (ZipArchive.ofMembers members).read (String.ofList opfPath) = .ok opfXml ∧
    packages.fromstring opfXml = .ok opfRoot

/-- Every chapter that the spine stands for is in the result, once for each reference and in the
    order of the spine. -/
def KeepsChapters (result : Except ExtractError (List Char)) : Prop :=
  ∃ chapters, epubChapters reader (ZipArchive.ofMembers members) opfPath opfRoot = .ok chapters ∧
    (chapters.map Prod.fst).Pairwise (· < ·) ∧
    ∀ p ∈ (spineItems opfRoot).zipIdx 1, ∀ chapter,
      wantedChapter? reader members opfPath opfRoot p.1 p.2 = some chapter →
        result = .ok (PyStr.join "\n\n".toList (chapters.map Prod.snd)) ∧
          chapters.filter (fun c => c.1 = p.2) = [(p.2, chapter)]

/-- The chapters that the spine stands for are found behind the directory of the OPF file. -/
def ReadsChapters : Prop :=
  ∀ p ∈ (spineItems opfRoot).zipIdx 1, ∀ chapter,
    wantedChapter? reader members opfPath opfRoot p.1 p.2 = some chapter →
      chapterUnder? reader members opfRoot (fun item => some (memberName opfPath item))
        p.1 p.2 = some chapter

variable {reader members opfPath opfRoot}

/-! ## Running over the spine -/

theorem epubChapter_eq (itemref : Element) (position : Nat) :
    epubChapter reader (ZipArchive.ofMembers members) opfPath opfRoot itemref position =
      .ok ((chapterUnder? reader members opfRoot (fun item => some (memberName opfPath item))
        itemref position).map (position, ·)) := by
  unfold epubChapter chapterUnder?
  -- an item that is no chapter, and a file that is missing, are skipped
  cases chapterItem? opfRoot itemref with
  | none => rfl
  | some item =>
    simp only [ZipArchive.ofMembers, Option.bind_eq_bind, Option.bind_some]
    cases members.reverse.lookup (String.ofList (memberName opfPath item)) <;> rfl

/-- Every reference of the spine whose file is found gives its chapter. -/
theorem epubChapters_eq :
    epubChapters reader (ZipArchive.ofMembers members) opfPath opfRoot =
      .ok (((spineItems opfRoot).zipIdx 1).filterMap fun p =>
        (chapterUnder? reader members opfRoot (fun item => some (memberName opfPath item))
          p.1 p.2).map (p.2, ·)) := by
  unfold epubChapters
  rw [mapM_ok fun p _ => epubChapter_eq p.1 p.2, Except.map, List.filterMap_map]
  rfl

/-- Positions tell the pairs of a list apart. -/
theorem filter_position {α : Type} {l : List (α × Nat)} (hl : (l.map Prod.snd).Nodup)
    {p : α × Nat} (hp : p ∈ l) : l.filter (fun q => q.2 = p.2) = [p] := by
  induction l with
  | nil => cases hp
  | cons q l ih =>
    rw [List.map_cons, List.nodup_cons] at hl
    rcases List.mem_cons.mp hp with rfl | hp
    · have hrest : l.filter (fun q => q.2 = p.2) = [] := by
        rw [List.filter_eq_nil_iff]
        intro r hr hsame
        exact hl.1 (List.mem_map.mpr ⟨r, hr, by simpa using hsame⟩)
      simp [hrest]
    · have hne : q.2 ≠ p.2 := fun h => hl.1 (h ▸ List.mem_map_of_mem hp)
      rw [List.filter_cons_of_neg (by simpa using hne), ih hl.2 hp]

section

variable {α β : Type} (f : α → Nat → Option β) (l : List α) (n : Nat)

/-- What the elements of a list give at their positions is in order. -/
theorem pairwise_positions :
    (((l.zipIdx n).filterMap fun p => (f p.1 p.2).map (p.2, ·)).map Prod.fst).Pairwise
      (· < ·) := by
  have hpositions : ((l.zipIdx n).map Prod.snd).Pairwise (· < ·) := by
    rw [List.zipIdx_map_snd]
    exact List.pairwise_lt_range'
  rw [List.pairwise_map] at hpositions ⊢
  refine hpositions.filterMap _ fun p q hlt c hc d hd => ?_
  obtain ⟨_, -, rfl⟩ := Option.map_eq_some_iff.mp hc
  obtain ⟨_, -, rfl⟩ := Option.map_eq_some_iff.mp hd
  exact hlt

/-- What the element at a position gives is found under the position. -/
theorem filter_positions {p : α × Nat} (hp : p ∈ l.zipIdx n) :
    ((l.zipIdx n).filterMap fun p => (f p.1 p.2).map (p.2, ·)).filter (fun c => c.1 = p.2) =
      ((f p.1 p.2).map (p.2, ·)).toList := by
  have hnodup : ((l.zipIdx n).map Prod.snd).Nodup := by
    rw [List.zipIdx_map_snd]
    exact List.nodup_range'
  have hone : [p].filterMap (fun p => (f p.1 p.2).map (p.2, ·)) =
      ((f p.1 p.2).map (p.2, ·)).toList := by
    cases h : (f p.1 p.2).map (p.2, ·) <;> simp [h]
  rw [← hone, ← filter_position hnodup hp, List.filter_filterMap, List.filterMap_filter]
  refine List.filterMap_congr fun q _ => ?_
  cases f q.1 q.2 with
  | none => simp
  | some b => by_cases hq : q.2 = p.2 <;> simp [hq, Option.filter]

end

/-- A package that opens is read from its OPF file on. -/
theorem EpubOpens.extract {packages : PackageReader} {content : List UInt8}
    (h : EpubOpens members opfPath opfRoot packages content) (filename : String) :
    extractEpubText packages reader content filename =
      epubText reader (ZipArchive.ofMembers members) opfPath opfRoot filename := by
  obtain ⟨containerXml, containerRoot, rootfile, hread, hparse, hfind, hpath⟩ := h.container
  obtain ⟨opfXml, hopf, hroot⟩ := h.opf
  have hclear : "META-INF/encryption.xml" ∉ (ZipArchive.ofMembers members).namelist :=
    h.notEncrypted
  unfold extractEpubText
  simp only [h.openZip, Except.mapError, bind, Except.bind, if_neg hclear, hread, hparse, hfind,
    Option.bind, hpath, hopf, hroot]

/-- Chapters are the text. -/
theorem epubText_of_mem {chapters : List (Nat × List Char)} {c : Nat × List Char}
    (h : epubChapters reader (ZipArchive.ofMembers members) opfPath opfRoot = .ok chapters)
    (hc : c ∈ chapters) (filename : String) :
    epubText reader (ZipArchive.ofMembers members) opfPath opfRoot filename =
      .ok (PyStr.join "\n\n".toList (chapters.map Prod.snd)) := by
  -- an empty spine would give no chapters
  have hspine : spineItems opfRoot ≠ [] := by
    intro hnil
    rw [epubChapters_eq, hnil] at h
    cases h
    cases hc
  unfold epubText
  rw [if_neg hspine, h]
  show (if chapters = [] then _ else _) = _
  rw [if_neg (List.ne_nil_of_mem hc)]

/-- The chapters of a book are kept if and only if the files that its references name have the
    chapters of those that are read. -/
theorem keepsChapters_iff {packages : PackageReader} {content : List UInt8}
    (h : EpubOpens members opfPath opfRoot packages content) (filename : String) :
    KeepsChapters reader members opfPath opfRoot
        (extractEpubText packages reader content filename) ↔
      ReadsChapters reader members opfPath opfRoot := by
  have hchapters := @epubChapters_eq reader members opfPath opfRoot
  constructor
  · -- the chapter under a position is the one that is read there
    rintro ⟨chapters, heq, -, hkept⟩ p hp chapter hwanted
    cases hchapters.symm.trans heq
    obtain ⟨-, hfilter⟩ := hkept p hp chapter hwanted
    rw [filter_positions _ _ _ hp] at hfilter
    cases hread : chapterUnder? reader members opfRoot
        (fun item => some (memberName opfPath item)) p.1 p.2 with
    | none => simp [hread] at hfilter
    | some read => simpa [hread] using hfilter
  · intro hreads
    refine ⟨_, hchapters, pairwise_positions _ _ _, fun p hp chapter hwanted => ?_⟩
    have hfilter := filter_positions (fun itemref position => chapterUnder? reader members opfRoot
      (fun item => some (memberName opfPath item)) itemref position) _ _ hp
    rw [hreads p hp chapter hwanted] at hfilter
    -- one chapter is enough for the extraction to succeed
    have hmem : (p.2, chapter) ∈ ((spineItems opfRoot).zipIdx 1).filterMap fun p =>
        (chapterUnder? reader members opfRoot (fun item => some (memberName opfPath item))
          p.1 p.2).map (p.2, ·) := by
      refine List.mem_of_mem_filter (p := fun c => c.1 = p.2) ?_
      rw [hfilter]
      exact List.mem_singleton_self _
    exact ⟨(h.extract filename).trans (epubText_of_mem hchapters hmem filename), hfilter⟩

/-- References of segments are read as they are meant. -/
theorem readsChapters_of_plain
    (h : ∀ itemref ∈ spineItems opfRoot, ∀ item, chapterItem? opfRoot itemref = some item →
      PlainHref (itemHref item)) :
    ReadsChapters reader members opfPath opfRoot := by
  intro p hp chapter hwanted
  have hitem := h p.1 (List.fst_mem_of_mem_zipIdx hp)
  unfold wantedChapter? chapterUnder? at hwanted
  unfold chapterUnder?
  cases hchapter : chapterItem? opfRoot p.1 with
  | none => simp [hchapter] at hwanted
  | some item =>
    rw [hchapter] at hwanted
    simpa [memberName, resolveHref_of_plain opfPath (hitem item hchapter)] using hwanted

end

/-! ## A book whose chapter stands beside the directory of its OPF file -/

/-- An OPF file with one chapter. -/
def bookOpf (href : String) : Element :=
  .mk (opfName "package") [] []
    [.mk (opfName "manifest") [] []
      [.mk (opfName "item") [("id", "c".toList), ("href", href.toList),
        ("media-type", "application/xhtml+xml".toList)] [] [] []] [],
     .mk (opfName "spine") [] [] [.mk (opfName "itemref") [("idref", "c".toList)] [] [] []] []] []

def bookMembers (chapter : String) : List (String × List UInt8) :=
  [("META-INF/container.xml", [0]), ("OEBPS/content.opf", [1]), (chapter, [2])]

def bookPackages (href chapter : String) : PackageReader where
  openZip _ := .ok (ZipArchive.ofMembers (bookMembers chapter))
  fromstring bytes :=
    if bytes = [0] then
      .ok (.mk (epubContainerName "container") [] []
        [.mk (epubContainerName "rootfile") [("full-path", "OEBPS/content.opf".toList)] [] [] []] [])
    else .ok (bookOpf href)

def bookReader : ChapterReader where
  text bytes := if bytes = [2] then "It was night.".toList else []
  heading _ := none

theorem epubOpens_book (href chapter : String)
    (hclear : "META-INF/encryption.xml" ∉ (bookMembers chapter).map Prod.fst)
    (hcontainer : (bookMembers chapter).reverse.lookup "META-INF/container.xml" = some [0])
    (hopf : (bookMembers chapter).reverse.lookup "OEBPS/content.opf" = some [1]) :
    EpubOpens (bookMembers chapter) "OEBPS/content.opf".toList (bookOpf href)
      (bookPackages href chapter) [] where
  openZip := rfl
  notEncrypted := hclear
  container := ⟨[0], _, _, by simp [ZipArchive.ofMembers, hcontainer], rfl, rfl, rfl⟩
  opf := ⟨[1], by simp [ZipArchive.ofMembers, hopf], rfl⟩

/-- A chapter in the directory of the OPF file is kept. -/
theorem keepsChapters_sibling :
    KeepsChapters bookReader (bookMembers "OEBPS/ch1.xhtml") "OEBPS/content.opf".toList
      (bookOpf "ch1.xhtml")
      (extractEpubText (bookPackages "ch1.xhtml" "OEBPS/ch1.xhtml") bookReader [] "book.epub") := by
  have hopens := epubOpens_book "ch1.xhtml" "OEBPS/ch1.xhtml" (by decide +kernel)
    (by decide +kernel) (by decide +kernel)
  have hhrefs : ((spineItems (bookOpf "ch1.xhtml")).filterMap
      (chapterItem? (bookOpf "ch1.xhtml"))).map itemHref = ["ch1.xhtml".toList] := by
    decide +kernel
  refine (keepsChapters_iff hopens "book.epub").mpr
    (readsChapters_of_plain fun itemref hitemref item hitem => ?_)
  have hhref : itemHref item ∈ ["ch1.xhtml".toList] :=
    hhrefs ▸ List.mem_map_of_mem (List.mem_filterMap.mpr ⟨itemref, hitemref, hitem⟩)
  rw [List.mem_singleton.mp hhref]
  constructor <;> decide +kernel

/-- A chapter that is reached by going up is lost. -/
theorem not_keepsChapters_up :
    EpubOpens (bookMembers "Text/ch1.xhtml") "OEBPS/content.opf".toList
        (bookOpf "../Text/ch1.xhtml") (bookPackages "../Text/ch1.xhtml" "Text/ch1.xhtml") [] ∧
      ¬ KeepsChapters bookReader (bookMembers "Text/ch1.xhtml") "OEBPS/content.opf".toList
        (bookOpf "../Text/ch1.xhtml")
        (extractEpubText (bookPackages "../Text/ch1.xhtml" "Text/ch1.xhtml") bookReader []
          "book.epub") := by
  refine ⟨epubOpens_book _ _ (by decide +kernel) (by decide +kernel) (by decide +kernel), ?_⟩
  rintro ⟨chapters, hchapters, -, hkept⟩
  have hnone : epubChapters bookReader (ZipArchive.ofMembers (bookMembers "Text/ch1.xhtml"))
      "OEBPS/content.opf".toList (bookOpf "../Text/ch1.xhtml") = .ok [] := by
    decide +kernel
  have hwanted : (((spineItems (bookOpf "../Text/ch1.xhtml")).zipIdx 1).map fun p =>
      wantedChapter? bookReader (bookMembers "Text/ch1.xhtml") "OEBPS/content.opf".toList
        (bookOpf "../Text/ch1.xhtml") p.1 p.2) =
      [some "## Chapter 1\n\nIt was night.".toList] := by
    decide +kernel
  obtain ⟨p, hp, hchapter⟩ := List.mem_map.mp (hwanted ▸ List.mem_singleton_self _)
  cases hnone.symm.trans hchapters
  cases (hkept p hp _ hchapter).2

end Inherent
