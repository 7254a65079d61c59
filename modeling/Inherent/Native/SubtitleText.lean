import Inherent.Native.Package
import Inherent.Native.PyLines
import Inherent.Native.PyNumbers

/-!
# Text of subtitles

`_extract_subtitle_text` (`temporal/activities/extract.py`) and its parser of SRT and WebVTT
cues: blocks between blank lines, each with a line of two timestamps.
-/

namespace PyStr

/-- `text.replace("\r\n", "\n")`. -/
def replaceCrLf : List Char → List Char
  | '\r' :: '\n' :: rest => '\n' :: replaceCrLf rest
  | c :: rest => c :: replaceCrLf rest
  | [] => []

/-- A text that begins with a character of each class. -/
def fits : List (Char → Bool) → List Char → Bool
  | [], _ => true
  | _ :: _, [] => false
  | p :: classes, c :: text => p c && fits classes text

end PyStr

namespace Inherent

/-! ## Blocks -/

/-- `text.replace("\r\n", "\n").replace("\r", "\n")`. -/
def normalizeNewlines (text : List Char) : List Char :=
  PyStr.replaceChar '\r' ['\n'] (PyStr.replaceCrLf text)

/-- How far `\s*\n` matches: up to the last newline of the whitespace. -/
def separatorLength? (text : List Char) : Option Nat :=
  let run := text.takeWhile PyStr.isSpace
  if '\n' ∈ run then some (run.length - (run.reverse.takeWhile fun c => c ≠ '\n').length)
  else none

/-- `re.split(r"\n\s*\n", text)`, behind the characters of a separator that are skipped. -/
def subtitleBlocksFrom : Nat → List Char → List (List Char)
  | _, [] => [[]]
  | skip + 1, _ :: rest => subtitleBlocksFrom skip rest
  | 0, c :: rest =>
    match (if c = '\n' then separatorLength? rest else none) with
    | some n => [] :: subtitleBlocksFrom n rest
    | none => (subtitleBlocksFrom 0 rest).modifyHead (c :: ·)

def subtitleBlocks (text : List Char) : List (List Char) := subtitleBlocksFrom 0 text

example : subtitleBlocks "1\na\n \n\n  b".toList = ["1\na".toList, "  b".toList] := by decide

/-! ## Timestamps -/

/-- `\d{2}:\d{2}:\d{2}[.,]\d{3}`. -/
def timestampClasses : List (Char → Bool) :=
  let d := PyStr.isDecimal
  let colon := fun c => c == ':'
  [d, d, colon, d, d, colon, d, d, fun c => c == '.' || c == ',', d, d, d]

/-- The first timestamp of `_TIMESTAMP_LINE_RE`, if it matches at the start of the text. -/
def matchTimestamps? (text : List Char) : Option (List Char) :=
  let arrow := (text.drop 12).dropWhile PyStr.isSpace
  if PyStr.fits timestampClasses text && PyStr.startsWith arrow "-->".toList &&
      PyStr.fits timestampClasses ((arrow.drop 3).dropWhile PyStr.isSpace) then
    some (text.take 12)
  else none

/-- The first timestamp where `_TIMESTAMP_LINE_RE` is found in a line. -/
def searchTimestamps? : List Char → Option (List Char)
  | [] => none
  | c :: rest => (matchTimestamps? (c :: rest)).or (searchTimestamps? rest)

/-- `_timestamp_to_marker`, or `none` where it raises. -/
def timestampToMarker (timestamp : List Char) : Option (List Char) :=
  match (PyStr.replaceChar ',' ['.'] timestamp).splitOn ':' with
  | [hours, minutes, seconds] => do
    let wholeSeconds := seconds.takeWhile fun c => c ≠ '.'
    let totalMinutes := (← PyStr.int? hours) * 60 + (← PyStr.int? minutes)
    return "[t=".toList ++ PyStr.pad2 totalMinutes ++ ":".toList ++
      PyStr.pad2 (← PyStr.int? wholeSeconds) ++ "]".toList
  | _ => none

/-! ## Cues -/

/-- The start of the first line with timestamps, and the lines behind it. -/
def findTimestamps? : List (List Char) → Option (List Char × List (List Char))
  | [] => none
  | line :: lines =>
    match searchTimestamps? line with
    | some start => some (start, lines)
    | none => findTimestamps? lines

/-- The cue of the lines of a block that are not blank. -/
def cueOfLines? (lines : List (List Char)) : Option (List Char × List Char) := do
  let (start, rest) ← findTimestamps? lines
  let cueText := PyStr.strip (PyStr.join [' '] rest)
  if cueText = [] then none else some (start, cueText)

/-- `_parse_subtitle_cues`. -/
def parseSubtitleCues (text : List Char) : List (List Char × List Char) :=
  (subtitleBlocks (normalizeNewlines text)).filterMap fun block =>
    cueOfLines? ((PyStr.lines block).filter fun line => PyStr.strip line ≠ [])

/-- `_TIMESTAMP_MARKER_EVERY_N_CUES`. -/
def timestampMarkerEveryNCues : Nat := 10

/-- The parts that a cue puts into the text. -/
def cueParts (index : Nat) (cue : List Char × List Char) :
    Except ExtractError (List (List Char)) :=
  if index % timestampMarkerEveryNCues = 0 then
    match timestampToMarker cue.1 with
    | some marker => .ok [marker, cue.2]
    | none => .error (.valueError cue.1)
  else .ok [cue.2]

/-- `_extract_subtitle_text`; `decode` is `_decode_text`. -/
def extractSubtitleText (decode : List UInt8 → List Char) (content : List UInt8)
    (filename : String) : Except ExtractError (List Char) := do
  let cues := parseSubtitleCues (decode content)
  if cues = [] then
    .error (.application ⟨"SubtitleNoCuesFound",
      "Subtitle extraction failed: no subtitle cues with valid timestamps found in " ++ filename ++
        ". Expected at least one 'HH:MM:SS,mmm --> HH:MM:SS,mmm' (SRT) or " ++
        "'HH:MM:SS.mmm --> HH:MM:SS.mmm' (WebVTT) cue."⟩)
  else
    let parts ← cues.zipIdx.mapM fun p => cueParts p.2 p.1
    .ok (PyStr.join [' '] parts.flatten)

example : parseSubtitleCues "WEBVTT\r\n\r\nx\r00:00:01.000 --> 00:00:02.000 line:0\r\na\nb".toList =
    [("00:00:01.000".toList, "a b".toList)] := by
  decide +kernel

end Inherent
