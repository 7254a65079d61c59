import Inherent.Native.Conversation
import Inherent.Native.PyLines

/-!
# Splitting a text into chunks

The strategies of `chunk_text` that know nothing of the format of the text
(`temporal/activities/chunk.py`): windows of a fixed size, whole sentences with an
overlap, and paragraphs.  A text is the list of its characters.
-/

namespace Inherent

/-- `ChunkData` (`temporal/models.py`), as the chunkers fill it. -/
structure ChunkData where
  documentId : String
  content : List Char
  chunkIndex : Nat
  startChar : Nat
  endChar : Nat
  sectionHeading : List Char := []
  deriving DecidableEq, Repr

/-- The list of chunks that a chunker has built, and its `chunk_index`. -/
structure ChunkSink where
  chunks : List ChunkData := []
  chunkIndex : Nat := 0
  deriving DecidableEq, Repr

/-- `chunks.append(ChunkData(...))` and `chunk_index += 1`. -/
def ChunkSink.add (sink : ChunkSink) (documentId : String) (content : List Char)
    (startChar endChar : Nat) (sectionHeading : List Char) : ChunkSink where
  chunks := sink.chunks ++
    [{ documentId := documentId, content := content, chunkIndex := sink.chunkIndex,
       startChar := startChar, endChar := endChar, sectionHeading := sectionHeading }]
  chunkIndex := sink.chunkIndex + 1

/-- The content and the span of a chunk. -/
def ChunkData.piece (chunk : ChunkData) : Piece :=
  (String.ofList chunk.content, chunk.startChar, chunk.endChar)

/-! ## `_chunk_by_size` -/

/-- The loop of `_chunk_by_size` from `start`: `none` when it takes more than `fuel` rounds. -/
def chunkBySizeLoop (text : List Char) (documentId : String) (maxSize overlap : Nat) :
    Nat → Nat → ChunkSink → Option ChunkSink
  | fuel, start, sink =>
    if start < text.length then
      match fuel with
      | 0 => none
      | fuel + 1 =>
        let stop := pieceEnd text maxSize start
        let chunkText := PyStr.strip (PyStr.slice text start stop)
        let next := if start < stop - overlap then stop - overlap else stop
        chunkBySizeLoop text documentId maxSize overlap fuel next
          (if chunkText = [] then sink else sink.add documentId chunkText start stop [])
    else some sink

/-- `_chunk_by_size`: one round for each character is enough if there is a window at all
    (`chunkBySize_eq`), and with `max_size = 0` the loop does not end. -/
def chunkBySize (text : List Char) (documentId : String) (maxSize overlap : Nat) :
    Option (List ChunkData) :=
  (chunkBySizeLoop text documentId maxSize overlap text.length 0 {}).map ChunkSink.chunks

/-! ## Units and their spans -/

/-- A unit of a text (a sentence, a paragraph, a line) and the span it is found at. -/
structure TextSpan where
  text : List Char
  start : Nat
  stop : Nat
  deriving DecidableEq, Repr

/-- The first character of the first text of a split. -/
def consFirst (c : Char) : List (List Char) → List (List Char)
  | [] => [[c]]
  | text :: texts => (c :: text) :: texts

/-- Where the split of a text into sentences stands: inside a sentence, behind its end, or
    in the whitespace between two sentences. -/
inductive SentenceMode where
  | inside
  | ended
  | between
  deriving DecidableEq, Repr

/-- The characters that end a sentence. -/
def endsSentence (c : Char) : Bool := c == '.' || c == '!' || c == '?'

/-- The mode behind a character of a sentence. -/
def modeAfter (c : Char) : SentenceMode := if endsSentence c then .ended else .inside

/-- `re.split(r"(?<=[.!?])\s+", text)` from a position in the text. -/
def splitSentencesFrom : SentenceMode → List Char → List (List Char)
  | _, [] => [[]]
  | .inside, c :: rest => consFirst c (splitSentencesFrom (modeAfter c) rest)
  | .ended, c :: rest =>
    if PyStr.isSpace c then [] :: splitSentencesFrom .between rest
    else consFirst c (splitSentencesFrom (modeAfter c) rest)
  | .between, c :: rest =>
    if PyStr.isSpace c then splitSentencesFrom .between rest
    else consFirst c (splitSentencesFrom (modeAfter c) rest)

/-- `re.split(r"(?<=[.!?])\s+", text)`. -/
def splitSentences (text : List Char) : List (List Char) := splitSentencesFrom .inside text

/-- The spans of the sentences, by a scan forward from `cursor`. -/
def sentenceSpansFrom (text : List Char) : Nat → List (List Char) → List TextSpan
  | _, [] => []
  | cursor, sentence :: sentences =>
    let idx := if sentence = [] then cursor else (PyStr.find text sentence cursor).getD cursor
    { text := sentence, start := idx, stop := idx + sentence.length } ::
      sentenceSpansFrom text (idx + sentence.length) sentences

/-- The sentences of a text and their spans. -/
def sentenceSpans (text : List Char) : List TextSpan :=
  sentenceSpansFrom text 0 (splitSentences text)

/-- `text.split("\n\n")`. -/
def splitBlocks : List Char → List (List Char)
  | [] => [[]]
  | [c] => [[c]]
  | c :: d :: rest =>
    if c = '\n' ∧ d = '\n' then [] :: splitBlocks rest else consFirst c (splitBlocks (d :: rest))

/-- The paragraphs that are not blank, by a scan of each block from its start. -/
def paragraphSpansFrom (text : List Char) : Nat → List (List Char) → List TextSpan
  | _, [] => []
  | blockStart, raw :: raws =>
    let para := PyStr.strip raw
    let rest := paragraphSpansFrom text (blockStart + raw.length + 2) raws
    if para = [] then rest
    else
      let idx := (PyStr.find text para blockStart).getD blockStart
      { text := para, start := idx, stop := idx + para.length } :: rest

/-- The paragraphs of a text and their spans. -/
def paragraphSpans (text : List Char) : List TextSpan :=
  paragraphSpansFrom text 0 (splitBlocks text)

/-! ## `_chunk_by_sentences` and `_chunk_by_paragraphs` -/

/-- `_emit`: a chunk of the units, unless they are blank. -/
def ChunkSink.emit (sep : List Char) (documentId : String) (sink : ChunkSink)
    (items : List TextSpan) : ChunkSink :=
  let content := PyStr.strip (PyStr.join sep (items.map TextSpan.text))
  if content = [] then sink
  else
    sink.add documentId content ((items.head?.map TextSpan.start).getD 0)
      ((items.getLast?.map TextSpan.stop).getD 0) []

/-- The state of the packing loops. -/
structure PackState where
  current : List TextSpan := []
  currentSize : Nat := 0
  sink : ChunkSink := {}
  deriving DecidableEq, Repr

/-- One round of a packing loop; `keep` is what is kept of a group that has been emitted,
    and its size. -/
def PackState.pack (sep : List Char) (documentId : String) (maxSize : Nat)
    (keep : List TextSpan → List TextSpan × Nat) (s : PackState) (u : TextSpan) : PackState :=
  let s :=
    if maxSize < s.currentSize + u.text.length ∧ s.current ≠ [] then
      { current := (keep s.current).1
        currentSize := (keep s.current).2
        sink := s.sink.emit sep documentId s.current }
    else s
  { s with current := s.current ++ [u], currentSize := s.currentSize + u.text.length }

/-- What is open at the end of the loop is emitted. -/
def PackState.finish (sep : List Char) (documentId : String) (s : PackState) : ChunkSink :=
  if s.current = [] then s.sink else s.sink.emit sep documentId s.current

/-- The trailing sentences of a group, last first, that fit into the overlap. -/
def overlapTail (overlap : Nat) : List TextSpan → List TextSpan × Nat → List TextSpan × Nat
  | [], kept => kept
  | u :: us, kept =>
    if kept.2 + u.text.length ≤ overlap then
      overlapTail overlap us (u :: kept.1, kept.2 + u.text.length)
    else kept

/-- The round of `_chunk_by_sentences`. -/
def PackState.packSentence (documentId : String) (maxSize overlap : Nat) :
    PackState → TextSpan → PackState :=
  PackState.pack [' '] documentId maxSize fun group => overlapTail overlap group.reverse ([], 0)

/-- `_chunk_by_sentences`. -/
def chunkBySentences (text : List Char) (documentId : String) (maxSize overlap : Nat) :
    List ChunkData :=
  (((sentenceSpans text).foldl (PackState.packSentence documentId maxSize overlap) {}).finish
    [' '] documentId).chunks

/-- The round of `_chunk_by_paragraphs`, which keeps nothing. -/
def PackState.packParagraph (documentId : String) (maxSize : Nat) :
    PackState → TextSpan → PackState :=
  PackState.pack ['\n', '\n'] documentId maxSize fun _ => ([], 0)

/-- `_chunk_by_paragraphs`. -/
def chunkByParagraphs (text : List Char) (documentId : String) (maxSize : Nat) :
    List ChunkData :=
  (((paragraphSpans text).foldl (PackState.packParagraph documentId maxSize) {}).finish
    ['\n', '\n'] documentId).chunks

/-! ## Lemmas about the chunks built so far -/

/-- The chunks are numbered from 0 on, and `chunk_index` is the next number. -/
structure ChunkSink.Indexed (sink : ChunkSink) : Prop where
  next : sink.chunkIndex = sink.chunks.length
  index : ∀ (k : Nat) (c : ChunkData), sink.chunks[k]? = some c → c.chunkIndex = k

theorem ChunkSink.indexed_empty : ChunkSink.Indexed {} where
  next := rfl
  index := by simp

theorem ChunkSink.Indexed.add {sink : ChunkSink} (h : sink.Indexed) (documentId : String)
    (content : List Char) (startChar endChar : Nat) (sectionHeading : List Char) :
    (sink.add documentId content startChar endChar sectionHeading).Indexed where
  next := by simp [ChunkSink.add, h.next]
  index := by
    intro k c hc
    simp only [ChunkSink.add, List.getElem?_append, List.getElem?_singleton] at hc
    split at hc
    · exact h.index k c hc
    · split at hc
      · have hk : k = sink.chunks.length := by omega
        rw [hk, ← h.next, ← Option.some.inj hc]
      · cases hc

end Inherent
