import Inherent.Native.ChunkText

/-!
# Sections of numbered headings

The `numbered_sections` strategy (`temporal/activities/numbered_sections.py`): the headings
that the profile of a pack describes split a text into sections, every section remembers the
headings it is under, and a section that is too long is split into sentences.

A pattern of a profile is a regular expression; all that is used of it is what its group 1
holds when it matches a line.
-/

namespace Inherent

/-- `HeadingPattern` (`inh_contracts/vertical_pack.py`).  `matchNumber line` is `group(1)` of
    `re.match(regex, line)` if the line matches; a group that takes no part in the match is
    Python's `None`. -/
structure HeadingPattern where
  level : Nat
  matchNumber : List Char → Option (Option (List Char))
  level_ge : 1 ≤ level
  level_le : level ≤ 9

/-- `ChunkingProfile` (`inh_contracts/vertical_pack.py`). -/
structure ChunkingProfile where
  splitAtLevel : Nat
  keepParentHeading : Bool := true
  maxTokens : Nat
  headingPatterns : List HeadingPattern
  splitAtLevel_ge : 1 ≤ splitAtLevel
  splitAtLevel_le : splitAtLevel ≤ 9
  maxTokens_pos : 0 < maxTokens
  headingPatterns_ne_nil : headingPatterns ≠ []

/-- `_Heading`. -/
structure Heading where
  number : Option (List Char)
  level : Nat
  deriving DecidableEq, Repr

/-- `_Section`: the heading is the line itself, and empty for the preamble. -/
structure Section where
  number : Option (List Char)
  level : Nat
  heading : List Char
  start : Nat
  stop : Nat := 0
  bodyLines : List (List Char) := []
  parentHeadings : List (List Char) := []
  deriving DecidableEq, Repr

/-- `_MARKDOWN_HEADING_PREFIX.sub("", line)`. -/
def dropMarkdownPrefix (line : List Char) : List Char :=
  if line.head? = some '#' then PyStr.lstrip (line.dropWhile fun c => c == '#') else line

/-- `classify_heading`. -/
def classifyHeading (line : List Char) (patterns : List HeadingPattern) : Option Heading :=
  let stripped := dropMarkdownPrefix (PyStr.strip line)
  patterns.findSome? fun pattern =>
    (pattern.matchNumber stripped).map fun number => { number := number, level := pattern.level }

/-! ## `_split_sections` -/

/-- The state of the loop over the lines; the open headings are a dict from the level. -/
structure SectionLoop where
  sections : List Section := []
  current : Section := { number := none, level := 0, heading := [], start := 0 }
  openHeadings : List (Nat × List Char) := []
  cursor : Nat := 0
  deriving DecidableEq, Repr

/-- `flush`: the current section ends, and is kept unless it is an empty preamble. -/
def SectionLoop.flush (s : SectionLoop) (stop : Nat) : List Section :=
  let current := { s.current with stop := stop }
  if current.number.isSome ∨ current.bodyLines ≠ [] then s.sections ++ [current] else s.sections

/-- A line that is not the heading of a section. -/
def SectionLoop.body (s : SectionLoop) (raw : List Char) : SectionLoop :=
  { s with
    current := { s.current with
      bodyLines := s.current.bodyLines ++ [PyStr.rstripNewlines raw] }
    cursor := s.cursor + raw.length }

/-- A heading closes the current section, itself and every deeper open heading. -/
def SectionLoop.open (profile : ChunkingProfile) (s : SectionLoop) (raw : List Char)
    (heading : Heading) : SectionLoop :=
  let line := PyStr.rstripNewlines raw
  let openHeadings := s.openHeadings.filter fun h => h.1 < heading.level
  let parents := (openHeadings.insertionSort fun g h => g.1 ≤ h.1).map Prod.snd
  { sections := s.flush s.cursor
    current :=
      { number := heading.number
        level := heading.level
        heading := line
        start := s.cursor
        parentHeadings := if profile.keepParentHeading then parents else [] }
    openHeadings := openHeadings ++ [(heading.level, line)]
    cursor := s.cursor + raw.length }

/-- One round of the loop over the lines. -/
def SectionLoop.line (profile : ChunkingProfile) (s : SectionLoop) (raw : List Char) :
    SectionLoop :=
  match classifyHeading (PyStr.rstripNewlines raw) profile.headingPatterns with
  | none => s.body raw
  | some heading =>
    if profile.splitAtLevel < heading.level then s.body raw else s.open profile raw heading

/-- `_split_sections`. -/
def splitSections (text : List Char) (profile : ChunkingProfile) : List Section :=
  let s := (PyStr.splitlines text).foldl (SectionLoop.line profile) {}
  s.flush s.cursor

/-! ## `split_numbered_sections` -/

/-- `_section_text`. -/
def sectionText (s : Section) : List Char :=
  PyStr.strip (PyStr.join ['\n'] ((if s.heading = [] then [] else [s.heading]) ++ s.bodyLines))

/-- `_context_prefix`. -/
def contextPrefix (s : Section) : List Char :=
  if s.parentHeadings = [] then []
  else PyStr.join ['\n'] (s.parentHeadings.map PyStr.strip) ++ ['\n']

/-- The chunks of one section. -/
def chunkSection (documentId : String) (charBudget overlap : Nat) (sink : ChunkSink)
    (s : Section) : ChunkSink :=
  let ownText := sectionText s
  if ownText = [] then sink
  else
    let context := contextPrefix s
    let headingLine := if s.heading = [] then [] else PyStr.strip s.heading
    if ownText.length + context.length ≤ charBudget then
      sink.add documentId (PyStr.strip (context ++ ownText)) s.start s.stop headingLine
    else
      let fullPrefix := context ++ if headingLine = [] then [] else headingLine ++ ['\n']
      let bodyText := PyStr.strip (PyStr.join ['\n'] s.bodyLines)
      let bodyOffset := s.start + if s.heading = [] then 0 else s.heading.length + 1
      let subBudget := max 1 (charBudget - fullPrefix.length)
      (chunkBySentences bodyText documentId subBudget overlap).foldl (fun sink sub =>
        sink.add documentId (PyStr.strip (fullPrefix ++ sub.content))
          (bodyOffset + sub.startChar) (bodyOffset + sub.endChar) headingLine) sink

/-- `split_numbered_sections`; a token is four characters. -/
def splitNumberedSections (text : List Char) (documentId : String) (profile : ChunkingProfile)
    (overlap : Nat) : List ChunkData :=
  ((splitSections text profile).foldl
    (chunkSection documentId (profile.maxTokens * 4) overlap) {}).chunks

end Inherent
