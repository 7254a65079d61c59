import Inherent.ForStd.IntervalMerge
import Inherent.ForStd.UniqueTable

/-!
# Context windows of search results

`ContextWindowBuilder` (`src/services/inh-public-api-svc/src/services/context_window.py`) and
the query that it runs, `get_context_chunks`
(`src/services/inh-public-api-svc/src/services/database.py`).
-/

namespace Inherent

open IntervalMerge

/-- What the query reads of a row of `document_chunks`. -/
structure ContextRow where
  id : String
  documentId : String
  workspaceId : String
  chunkIndex : Nat
  content : String
  tokenCount : Option Nat
  deriving DecidableEq, Repr

/-- What it reads of a row of `processed_documents`. -/
structure OwnedDocument where
  documentId : String
  workspaceId : String
  userId : String
  deriving DecidableEq, Repr

/-- The two tables, under their unique constraints. -/
structure ContextTables where
  chunks : UniqueTable fun row : ContextRow => (row.documentId, row.chunkIndex)
  documents : UniqueTable OwnedDocument.documentId

/-- A `DocumentChunk` that the query returns. -/
structure FetchedChunk where
  id : String
  documentId : String
  chunkIndex : Nat
  content : String
  tokenCount : Nat
  deriving DecidableEq, Repr

/-- `ContextChunk`. -/
structure ContextChunk where
  chunkId : String
  chunkIndex : Nat
  content : String
  tokenCount : Nat
  deriving DecidableEq, Repr

/-- What the builder reads and sets of a `SearchResult`; `chunkIndex` is what
    `_match_chunk_index` makes of its metadata. -/
structure ContextMatch where
  documentId : String
  chunkIndex : Option ℤ
  contextBefore : Option (List ContextChunk) := none
  contextAfter : Option (List ContextChunk) := none
  deriving DecidableEq, Repr

/-- A range: a document with the first and the last chunk index. -/
abbrev ChunkRange := String × Span

/-! ## The ranges -/

/-- `(max(0, idx - k), idx + k)`. -/
def matchSpan (k : Nat) (idx : ℤ) : Span := (max 0 (idx - k), idx + k)

/-- The spans that `per_doc` collects for a document. -/
def documentSpans (k : Nat) (matched : List ContextMatch) (documentId : String) : List Span :=
  (matched.filter fun m => m.documentId = documentId).filterMap fun m =>
    m.chunkIndex.map (matchSpan k)

/-- The keys of `per_doc`, in the order in which they are set. -/
def rangedDocuments (matched : List ContextMatch) : List String :=
  ((matched.filter fun m => m.chunkIndex.isSome).map ContextMatch.documentId).eraseDups

/-- `_compute_ranges`. -/
def computeRanges (matched : List ContextMatch) (k : Nat) : List ChunkRange :=
  if k ≤ 0 then []
  else (rangedDocuments matched).flatMap fun documentId =>
    let spans := (documentSpans k matched documentId).mergeSort fun s t => toLex s ≤ toLex t
    (mergeSpans spans).map fun span => (documentId, span)

/-! ## The query -/

/-- The row passes the join with its document, for the workspace and the user. -/
def ContextTables.owns (tables : ContextTables) (workspaceId userId : String)
    (row : ContextRow) : Bool :=
  row.workspaceId = workspaceId && tables.documents.rows.any fun d =>
    d.documentId = row.documentId && d.workspaceId = row.workspaceId && d.userId = userId

/-- The clause `document_id = doc AND chunk_index BETWEEN lo AND hi`. -/
def ChunkRange.admits (range : ChunkRange) (row : ContextRow) : Bool :=
  row.documentId = range.1 && decide (Covers range.2 row.chunkIndex)

def ContextRow.fetched (row : ContextRow) : FetchedChunk where
  id := row.id
  documentId := row.documentId
  chunkIndex := row.chunkIndex
  content := row.content
  tokenCount := row.tokenCount.getD 0

/-- `ORDER BY document_id, chunk_index`. -/
def rowKey (row : ContextRow) : String ×ₗ Nat := toLex (row.documentId, row.chunkIndex)

/-- `get_context_chunks`. -/
def getContextChunks (tables : ContextTables) (workspaceId userId : String)
    (ranges : List ChunkRange) : List FetchedChunk :=
  if ranges = [] then []
  else
    ((tables.chunks.rows.filter fun row =>
      tables.owns workspaceId userId row && ranges.any fun range => range.admits row).mergeSort
        fun a b => rowKey a ≤ rowKey b).map ContextRow.fetched

/-! ## The windows -/

def FetchedChunk.context (row : FetchedChunk) : ContextChunk where
  chunkId := row.id
  chunkIndex := row.chunkIndex
  content := row.content
  tokenCount := row.tokenCount

/-- `_assign_windows`. -/
def assignWindows (matched : List ContextMatch) (rows : List FetchedChunk) (k : Nat) :
    List ContextMatch :=
  matched.map fun m =>
    match m.chunkIndex with
    | none => m
    | some idx =>
      let docRows := (rows.filter fun r => r.documentId = m.documentId).mergeSort
        fun a b => a.chunkIndex ≤ b.chunkIndex
      let before := docRows.filter fun r => idx - k ≤ r.chunkIndex ∧ (r.chunkIndex : ℤ) < idx
      let after := docRows.filter fun r => idx < r.chunkIndex ∧ (r.chunkIndex : ℤ) ≤ idx + k
      { m with
        contextBefore := some (before.map FetchedChunk.context)
        contextAfter := some (after.map FetchedChunk.context) }

/-- `expand`; without tables the fetch raises. -/
def expand (tables : Option ContextTables) (matched : List ContextMatch)
    (workspaceId userId : String) (k : Nat) : List ContextMatch :=
  if matched = [] then []
  else if k = 0 then
    matched.map fun m => { m with contextBefore := some [], contextAfter := some [] }
  else
    let ranges := computeRanges matched k
    if ranges = [] then matched
    else
      match tables with
      | none => matched
      | some tables => assignWindows matched (getContextChunks tables workspaceId userId ranges) k

end Inherent
