import Inherent.Native.ChunkText

/-!
# Chunks of whole lines

The two strategies of `chunk_text` that pack lines (`temporal/activities/chunk.py`): rows of
sheets, and sections under headings.  Both start a new group at a heading, put a bounded copy
of the heading (and of the header row) before every later group, and cut a line that is
longer than `max_size` into slices.  They are one loop, `LineChunker`, with the values of
`_chunk_by_rows` and of `_chunk_by_sections`.
-/

namespace Inherent

/-! ## Lines -/

/-- The loop of `_line_entries` from `cursor`. -/
def lineEntriesFrom : Nat → List (List Char) → List TextSpan
  | _, [] => []
  | cursor, raw :: raws =>
    let stripped := PyStr.rstripNewlines raw
    { text := stripped, start := cursor, stop := cursor + stripped.length } ::
      lineEntriesFrom (cursor + raw.length) raws

/-- `_line_entries`. -/
def lineEntries (text : List Char) : List TextSpan := lineEntriesFrom 0 (PyStr.splitlines text)

/-! ## Injected context -/

/-- The `cap` of `_bounded_context`; `_MAX_INJECTED_CONTEXT_CHARS` is 500. -/
def contextCap (maxSize : Nat) : Nat :=
  min (max 20 (min maxSize (if 60 < maxSize then maxSize / 3 else maxSize))) 500

/-- `_bounded_context`. -/
def boundedContext (text : List Char) (maxSize : Nat) : List Char :=
  if text.length ≤ contextCap maxSize then text
  else
    text.take (contextCap maxSize) ++ "...[+".toList ++
      PyStr.ofNat (text.length - contextCap maxSize) ++ " chars]".toList

/-- The separator between the injected context and the lines. -/
def contextSep : List Char := ['\n', '\n']

/-- The progress that a slice makes at least. -/
def sliceFloor (maxSize : Nat) : Nat := max 1 (maxSize / 5)

/-- The context before each slice of an oversized line: bounded, and cut further when it
    leaves less than the floor. -/
def sliceBlock (context : List Char) (maxSize : Nat) : List Char :=
  let block := if context = [] then [] else boundedContext context maxSize ++ contextSep
  if maxSize < sliceFloor maxSize + block.length then
    let trimmed := context.take (maxSize - sliceFloor maxSize - 2)
    if trimmed = [] then [] else trimmed ++ contextSep
  else block

/-- What is left for the line in each slice. -/
def sliceBudget (context : List Char) (maxSize : Nat) : Nat :=
  max (sliceFloor maxSize) (maxSize - (sliceBlock context maxSize).length)

/-- The loop of `_slice_oversized_line` from `pos`: one round for each remaining character is
    enough, as the budget is not 0 (`tiles_sliceSteps`). -/
def sliceLoop (line : TextSpan) (documentId : String) (block : List Char) (budget : Nat) :
    Nat → Nat → ChunkSink → ChunkSink
  | 0, _, sink => sink
  | fuel + 1, pos, sink =>
    if pos < line.text.length then
      let pieceEnd := min (pos + budget) line.text.length
      sliceLoop line documentId block budget fuel pieceEnd
        (sink.add documentId (PyStr.strip (block ++ PyStr.slice line.text pos pieceEnd))
          (line.start + pos) (line.start + pieceEnd) [])
    else sink

/-- `_slice_oversized_line`, and the slices at the end of the chunks. -/
def sliceOversizedLine (line : TextSpan) (documentId : String) (maxSize : Nat)
    (context : List Char) (sink : ChunkSink) : ChunkSink :=
  sliceLoop line documentId (sliceBlock context maxSize) (sliceBudget context maxSize)
    line.text.length 0 sink

/-! ## The packing loop -/

/-- The open group: its lines, `group_size`, and whether it has its context as real lines. -/
structure LineGroup where
  lines : List TextSpan := []
  size : Nat := 0
  hasContext : Bool := false
  deriving DecidableEq, Repr

/-- The content of the chunk of a group, before it is stripped. -/
def LineGroup.content (g : LineGroup) (context : List Char) : List Char :=
  let body := PyStr.join ['\n'] (g.lines.map TextSpan.text)
  if context = [] ∨ g.hasContext = true then body else context ++ contextSep ++ body

/-- `pack_cap`: how long the open group may get. -/
def LineGroup.packCap (g : LineGroup) (context : List Char) (maxSize : Nat) : Nat :=
  if g.hasContext = true ∨ context = [] then maxSize else max 1 (maxSize - context.length - 2)

/-- `flush`: the chunk of the open group. -/
def LineGroup.flush (g : LineGroup) (documentId : String) (context : List Char)
    (sink : ChunkSink) : ChunkSink :=
  if g.lines = [] then sink
  else
    sink.add documentId (PyStr.strip (g.content context))
      ((g.lines.head?.map TextSpan.start).getD 0) ((g.lines.getLast?.map TextSpan.stop).getD 0) []

/-- What the two strategies differ in; `κ` is the context that they track. -/
structure LineChunker (κ : Type) where
  /-- The context behind a line that starts a sheet or a section. -/
  newSection : List Char → Option κ
  /-- The context that is injected, each part bounded. -/
  context : κ → Nat → List Char
  /-- The context that is passed on for an oversized line. -/
  sliceContext : κ → Nat → List Char
  /-- The group has nothing but its context. -/
  isOrphan : κ → LineGroup → Bool
  /-- The next line of normal size is adopted into the context. -/
  adopts : κ → Bool
  adopt : κ → List Char → κ
  adopted : ∀ ctx line, adopts ctx = true → adopts (adopt ctx line) = false

/-- The state of the loop. -/
structure LineState (κ : Type) where
  ctx : κ
  group : LineGroup := {}
  sink : ChunkSink := {}

section Loop

variable {κ : Type} (p : LineChunker κ) (documentId : String) (maxSize : Nat)

/-- The open group is flushed. -/
def LineState.flush (s : LineState κ) : LineState κ :=
  { s with group := {}, sink := s.group.flush documentId (p.context s.ctx maxSize) s.sink }

/-- A line that starts a sheet or a section. -/
def LineState.startSection (s : LineState κ) (e : TextSpan) (ctx : κ) : LineState κ :=
  { s.flush p documentId maxSize with
    ctx := ctx
    group := { lines := [e], size := e.text.length, hasContext := true } }

/-- A line that is longer than `max_size`: a group of context only is merged into its
    slices. -/
def LineState.oversized (s : LineState κ) (e : TextSpan) : LineState κ :=
  let s := if p.isOrphan s.ctx s.group = true then { s with group := {} }
    else s.flush p documentId maxSize
  { s with sink := sliceOversizedLine e documentId maxSize (p.sliceContext s.ctx maxSize) s.sink }

/-- A line of normal size. -/
def LineState.row (s : LineState κ) (e : TextSpan) : LineState κ :=
  let first := p.adopts s.ctx
  let s := { s with ctx := if first = true then p.adopt s.ctx e.text else s.ctx }
  let lineLen := e.text.length + 1
  let s :=
    if s.group.lines ≠ [] ∧
        s.group.packCap (p.context s.ctx maxSize) maxSize < s.group.size + lineLen then
      s.flush p documentId maxSize
    else s
  { s with
    group :=
      { lines := s.group.lines ++ [e]
        size := s.group.size + lineLen
        hasContext := s.group.hasContext || first } }

/-- One round of the loop. -/
def LineState.line (s : LineState κ) (e : TextSpan) : LineState κ :=
  if PyStr.strip e.text = [] then s
  else
    match p.newSection e.text with
    | some ctx => s.startSection p documentId maxSize e ctx
    | none =>
      if maxSize < e.text.length then s.oversized p documentId maxSize e
      else s.row p documentId maxSize e

/-- The whole loop over the lines of a text, and the last flush. -/
def LineChunker.chunks (init : κ) (text : List Char) : List ChunkData :=
  (((lineEntries text).foldl (LineState.line p documentId maxSize) { ctx := init }).flush p
    documentId maxSize).sink.chunks

end Loop

/-! ## `_chunk_by_rows` -/

/-- `sheet_heading` and `header_row`. -/
structure RowContext where
  sheetHeading : Option (List Char) := none
  headerRow : Option (List Char) := none
  deriving DecidableEq, Repr

/-- `_SHEET_HEADING_PREFIX`. -/
def sheetHeadingPrefix : List Char := "## Sheet:".toList

/-- `_SHEET_HEADING_CONTINUED_SUFFIX`. -/
def continuedSuffix : List Char := " (continued)".toList

/-- The sheet heading that is tracked for a line. -/
def sheetHeadingOf (line : List Char) : List Char :=
  if PyStr.endsWith line continuedSuffix then line.take (line.length - continuedSuffix.length)
  else line

/-- The parts of the context that there are. -/
def RowContext.parts (c : RowContext) : List (List Char) :=
  (c.sheetHeading.toList ++ c.headerRow.toList).filter fun t => t ≠ []

/-- `context_prefix`. -/
def RowContext.context (c : RowContext) (maxSize : Nat) : List Char :=
  PyStr.join ['\n'] (c.parts.map fun t => boundedContext t maxSize)

/-- The values of `_chunk_by_rows`: the first row of normal size of a sheet is adopted as its
    header row. -/
def rowChunker : LineChunker RowContext where
  newSection line :=
    if PyStr.startsWith line sheetHeadingPrefix then
      some { sheetHeading := some (sheetHeadingOf line), headerRow := none }
    else none
  context := RowContext.context
  sliceContext := RowContext.context
  isOrphan c g := g.lines ≠ [] ∧ ∀ t ∈ g.lines, t.text ∈ c.parts
  adopts c := c.headerRow.isNone
  adopt c line := { c with headerRow := some line }
  adopted _ _ _ := rfl

/-- `_chunk_by_rows`. -/
def chunkByRows (text : List Char) (documentId : String) (maxSize : Nat) : List ChunkData :=
  rowChunker.chunks documentId maxSize {} text

/-! ## `_chunk_by_sections` -/

/-- `_SECTION_HEADING_PREFIX`. -/
def sectionHeadingPrefix : List Char := "## ".toList

/-- The values of `_chunk_by_sections`; the context is `section_heading`. -/
def sectionChunker : LineChunker (Option (List Char)) where
  newSection line := if PyStr.startsWith line sectionHeadingPrefix then some (some line) else none
  context heading maxSize := (heading.map fun t => boundedContext t maxSize).getD []
  sliceContext heading _ := heading.getD []
  isOrphan heading g :=
    g.lines ≠ [] ∧ g.hasContext = true ∧ ∀ t ∈ g.lines, some t.text = heading
  adopts _ := false
  adopt heading _ := heading
  adopted _ _ _ := rfl

/-- `_has_section_markers`. -/
def hasSectionMarkers (text : List Char) : Bool :=
  (lineEntries text).any fun e => PyStr.startsWith e.text sectionHeadingPrefix

/-- `_chunk_by_sections`, with `_has_markers` as it is computed for the text. -/
def chunkBySections (text : List Char) (documentId : String) (maxSize overlap : Nat) :
    Option (List ChunkData) :=
  if hasSectionMarkers text then some (sectionChunker.chunks documentId maxSize none text)
  else chunkBySize text documentId maxSize overlap

end Inherent

/-!
## Prose with a header block

`_chunk_prose` (`temporal/activities/chunk.py`): a text that starts with at least two lines
of the shape `Key: value` is split into sentences with less room, and the block of these
lines is put before every chunk that starts behind it.
-/

namespace Inherent

/-! ## The header block -/

/-- The characters of a key behind its first one. -/
def isKeyChar (c : Char) : Bool := c.isAlphanum || c == ' ' || c == '_' || c == '-'

/-- `_HEADER_LINE_RE.match`: `[A-Za-z][A-Za-z0-9 _-]{0,40}:\s+\S`.  The key ends at the first
    character that it may not have, which has to be the colon. -/
def isHeaderLine : List Char → Bool
  | [] => false
  | c :: rest =>
    c.isAlpha && decide ((rest.takeWhile isKeyChar).length ≤ 40) &&
      match rest.dropWhile isKeyChar with
      | [] => false
      | d :: value =>
        d == ':' && (value.head?.map PyStr.isSpace).getD false && PyStr.lstrip value != []

/-- `_MAX_HEADER_BLOCK_LINES`. -/
def maxHeaderBlockLines : Nat := 8

/-- `_MAX_HEADER_BLOCK_SCAN_CHARS`. -/
def maxHeaderBlockScanChars : Nat := 2000

/-- `_MIN_HEADER_BLOCK_LINES`. -/
def minHeaderBlockLines : Nat := 2

/-- The loop of `_detect_header_block`, with `matched` and `cursor`. -/
def headerLoop : List (List Char) → List (List Char) → Nat → List (List Char) × Nat
  | [], matched, cursor => (matched, cursor)
  | raw :: raws, matched, cursor =>
    let stripped := PyStr.rstripNewlines raw
    if stripped = [] then (matched, cursor)
    else if isHeaderLine stripped = false then (matched, cursor)
    else if maxHeaderBlockLines ≤ (matched ++ [stripped]).length then
      (matched ++ [stripped], cursor + raw.length)
    else headerLoop raws (matched ++ [stripped]) (cursor + raw.length)

/-- `_detect_header_block`: the block, and the offset behind it. -/
def detectHeaderBlock (text : List Char) : List Char × Nat :=
  let found := headerLoop (PyStr.splitlines (text.take maxHeaderBlockScanChars)) [] 0
  if found.1.length < minHeaderBlockLines then ([], 0) else (PyStr.join ['\n'] found.1, found.2)

/-- `_MAX_HEADER_LINE_CHARS`. -/
def maxHeaderLineChars : Nat := 200

/-- One line of `_bound_header_block`. -/
def boundHeaderLine (line : List Char) : List Char :=
  if maxHeaderLineChars < line.length then
    line.take maxHeaderLineChars ++ "...[+".toList ++
      PyStr.ofNat (line.length - maxHeaderLineChars) ++ " chars]".toList
  else line

/-- `_bound_header_block`. -/
def boundHeaderBlock (headerBlock : List Char) : List Char :=
  PyStr.join ['\n'] ((headerBlock.splitOn '\n').map boundHeaderLine)

/-! ## `_chunk_prose` -/

/-- The last loop of `_chunk_prose` on one chunk. -/
def ChunkData.carryHeader (headerBlock : List Char) (headerEnd : Nat) (c : ChunkData) : ChunkData :=
  if headerEnd ≤ c.startChar then
    { c with content := PyStr.strip (headerBlock ++ contextSep ++ c.content) }
  else c

/-- `_chunk_prose`, with `_header` as it is computed for the text. -/
def chunkProse (text : List Char) (documentId : String) (maxSize overlap : Nat) :
    List ChunkData :=
  let header := detectHeaderBlock text
  if header.1 = [] then chunkBySentences text documentId maxSize overlap
  else
    let headerBlock := boundHeaderBlock header.1
    let reserved := headerBlock.length + 2
    if maxSize ≤ reserved then chunkBySentences text documentId maxSize overlap
    else
      let effectiveMaxSize := maxSize - reserved
      let effectiveOverlap := min overlap (effectiveMaxSize / 2)
      (chunkBySentences text documentId effectiveMaxSize effectiveOverlap).map
        (ChunkData.carryHeader headerBlock header.2)

example : detectHeaderBlock "From: a\nTo: b\n\nHello.".toList = ("From: a\nTo: b".toList, 14) := by
  decide

end Inherent
