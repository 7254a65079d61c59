import Inherent.Native.PyStr

/-!
# Document context

`windowed_document_context` (`src/services/inh-public-api-svc/src/models/document.py`): one page
of a document's text, which both the REST route and the MCP tool `get_context` return, and the
reading of a document page by page.
-/

namespace Inherent

/-- What the context reads of a `DocumentChunk` of the public API. -/
structure PublicChunk where
  id : String
  content : List Char
  deriving DecidableEq, Repr

/-- `ContextWindow`. -/
structure ContextWindow where
  fullText : List Char
  chunks : List PublicChunk
  totalChars : Nat
  truncated : Bool
  offset : Nat
  nextOffset : Option Nat
  deriving DecidableEq, Repr

/-- `"\n\n".join(chunk.content for chunk in chunks)`. -/
def joinedContent (chunks : List PublicChunk) : List Char :=
  List.intercalate ['\n', '\n'] (chunks.map PublicChunk.content)

/-- The loop over the chunks; `pos` is where the first of them starts in the joined text. -/
def windowedChunks (offset windowEnd : Nat) : Nat → List PublicChunk → List PublicChunk
  | _, [] => []
  | pos, chunk :: rest =>
    let stop := pos + chunk.content.length
    if stop > offset ∧ pos < windowEnd then
      chunk :: windowedChunks offset windowEnd (stop + 2) rest
    else windowedChunks offset windowEnd (stop + 2) rest

/-- The marker of a page that ends at `windowEnd` before the end of the text. -/
def truncationMarker (offset windowEnd totalChars : Nat) : List Char :=
  ("\n\n[...truncated: showing chars " ++ toString offset ++ "-" ++ toString windowEnd ++
    " of " ++ toString totalChars ++ "; request offset=" ++ toString windowEnd ++
    " for more...]").toList

/-- `windowed_document_context`. -/
def windowedDocumentContext (chunks : List PublicChunk) (offset : Int) (maxChars : Nat) :
    ContextWindow :=
  let joined := joinedContent chunks
  let totalChars := joined.length
  let offset := (max 0 (min offset totalChars)).toNat
  let windowEnd := min (offset + maxChars) totalChars
  let truncated := windowEnd < totalChars
  let slicedText := PyStr.slice joined offset windowEnd
  { fullText :=
      if truncated then slicedText ++ truncationMarker offset windowEnd totalChars else slicedText
    chunks := windowedChunks offset windowEnd 0 chunks
    totalChars := totalChars
    truncated := truncated
    offset := offset
    nextOffset := if truncated then some windowEnd else none }

/-- `MIN_MAX_CHARS`, `MAX_MAX_CHARS` and `DEFAULT_MAX_CHARS`. -/
def minMaxChars : Nat := 1
def maxMaxChars : Nat := 100000
def defaultMaxChars : Nat := 20000

/-- The page that `_handle_get_context` returns for its arguments `max_chars` and `offset`;
    `none` is an argument that `int` rejects. -/
def handleGetContext (chunks : List PublicChunk) (maxChars offset : Option Int) : ContextWindow :=
  let maxChars := match maxChars with
    | some n => (min (maxMaxChars : Int) (max minMaxChars n)).toNat
    | none => defaultMaxChars
  let offset := match offset with
    | some n => max 0 n
    | none => 0
  windowedDocumentContext chunks offset maxChars

/-- A caller that follows `next_offset` from `offset` on, with `maxChars n` as the `max_chars`
    of its page with the number `n`; `none` when `fuel` pages do not reach the last one. -/
def readPages (chunks : List PublicChunk) (maxChars : Nat → Nat) :
    Nat → Nat → Int → Option (List ContextWindow)
  | 0, _, _ => none
  | fuel + 1, n, offset =>
    let window := windowedDocumentContext chunks offset (maxChars n)
    match window.nextOffset with
    | none => some [window]
    | some next => (readPages chunks maxChars fuel (n + 1) next).map (window :: ·)

end Inherent
