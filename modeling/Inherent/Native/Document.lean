import Inherent.ForStd.UniqueTable
import Inherent.Native.PyStr

/-!
# The document tables

The rows of `processed_documents` and `document_chunks` and the objects the
services write them from.  A `Document` is one row of `processed_documents`
together with the chunk rows that reference it (`processed_document_id`), so that
deleting the parent row deletes its chunks, as the foreign key's
`ON DELETE CASCADE` does.  The unique index `uq_document_chunks_doc_idx` on
`(processed_document_id, chunk_index)` is the `UniqueTable` the chunks live in.

A timestamp is a `Nat`; a SHA-256 digest is represented by the text it was
computed from (`Sha256`), so two digests are equal exactly when the texts are.
-/

namespace Inherent

/-- A Temporal run id (`workflow.info().run_id`). -/
abbrev RunId := String

/-- A point in time (`datetime.now(UTC)`, `workflow.info().start_time`). -/
abbrev Timestamp := Nat

/-- `DocumentStatus` (`services/database.py`). -/
inductive DocumentStatus where
  | pending
  | processing
  | processed
  | failed
  | deleted
  deriving DecidableEq, Repr

/-- The digest `hashlib.sha256(content.encode("utf-8")).hexdigest()`. -/
structure Sha256 where
  preimage : String
  deriving DecidableEq, Repr

/-- `estimate_tokens`: `ceil(max(words * 1.3, chars / 4))`, with `1.3` as `13/10`. -/
def estimateTokens (text : String) : Nat :=
  max ((PyStr.wordCount text.toList * 13 + 9) / 10) ((text.toList.length + 3) / 4)

/-- The conversation attribution of a chunk (`turn_index` ... `client`). -/
structure TurnAttribution where
  turnIndex : Nat
  turnId : String
  role : Option String
  turnTs : String
  client : Option String
  deriving DecidableEq, Repr

/-- The `metadata` of a chunk: the keys that `_risk_metadata` and the public
    chunk API write, each absent unless set. -/
structure ChunkMetadata where
  contentRisk : Option String := none
  contentRiskReasons : List String := []
  chunkingStrategy : Option String := none
  sectionHeading : Option String := none
  tags : List (String × String) := []
  tagsWeaviate : List String := []
  turn : Option TurnAttribution := none
  chunkSource : Option String := none
  deriving DecidableEq, Repr

/-- `DocumentChunk` (`models/document.py`), as the store activities build it. -/
structure DocumentChunk where
  documentId : String
  content : String
  chunkIndex : Nat
  startChar : Nat
  endChar : Nat
  tokenCount : Option Nat
  metadata : Option ChunkMetadata
  deriving DecidableEq, Repr

/-- A row of `document_chunks`. -/
structure ChunkRow where
  documentId : String
  workspaceId : String
  tenantId : Option Nat
  chunkIndex : Nat
  content : String
  tokenCount : Nat
  startChar : Nat := 0
  endChar : Nat := 0
  metadata : Option ChunkMetadata
  contentHash : Sha256
  sourceUri : Option String
  sourceUrl : Option String := none
  createdAt : Timestamp
  ingestedAt : Timestamp
  deriving DecidableEq, Repr

/-- The chunk rows of one document, under `uq_document_chunks_doc_idx`. -/
abbrev ChunkTable := UniqueTable ChunkRow.chunkIndex

/-- `COALESCE(MAX(chunk_index), -1) + 1`. -/
def ChunkTable.nextIndex (t : ChunkTable) : Nat :=
  t.rows.foldr (fun r n => max (r.chunkIndex + 1) n) 0

/-- The document-level `metadata` a conversation flush writes. -/
structure ConversationMetadata where
  turnCount : Nat
  lastFlushedAt : Timestamp
  deriving DecidableEq, Repr

/-- A row of `processed_documents`. -/
structure ProcessedDocument where
  documentId : String
  workspaceId : String
  userId : String
  uploadedBy : Option String
  tenantId : Option Nat
  filename : String
  originalFilename : String
  contentType : String
  sizeBytes : Nat
  storageBackend : String
  storagePath : String
  storageBucket : Option String
  storageUrl : Option String
  sourceUrl : Option String := none
  status : DocumentStatus
  errorMessage : Option String := none
  chunkCount : Nat
  textLength : Nat := 0
  processingTimeMs : Nat := 0
  metadata : Option ConversationMetadata := none
  contentHash : Option Sha256 := none
  createdAt : Timestamp
  updatedAt : Timestamp
  processedAt : Option Timestamp := none
  activeRunId : Option RunId := none
  activeRunClaimedAt : Option Timestamp := none
  documentType : String := "file"
  externalId : Option String := none
  deriving DecidableEq, Repr

/-- A document: its row and the chunk rows that reference it. -/
structure Document where
  row : ProcessedDocument
  chunks : ChunkTable
  deriving DecidableEq

/-- `DocumentUploadMessage` (`inh_contracts/events.py`). -/
structure DocumentUploadMessage where
  documentId : String
  workspaceId : String
  userId : String
  uploadedBy : Option String := none
  filename : String
  originalFilename : String
  contentType : String
  sizeBytes : Nat
  storageBackend : String
  storagePath : String
  storageBucket : Option String := none
  storageUrl : Option String := none
  timestamp : String
  source : Option String := none
  connectionId : Option String := none
  syncId : Option String := none
  sourceUrl : Option String := none
  deriving DecidableEq, Repr

/-! ## The next free index -/

theorem ChunkTable.lt_nextIndex {t : ChunkTable} {r : ChunkRow} (h : r ∈ t.rows) :
    r.chunkIndex < t.nextIndex := by
  have hfold : ∀ rows : List ChunkRow, r ∈ rows →
      r.chunkIndex < rows.foldr (fun r n => max (r.chunkIndex + 1) n) 0 := by
    intro rows hr
    induction rows with
    | nil => exact absurd hr List.not_mem_nil
    | cons r' rows ih =>
      rw [List.foldr_cons]
      rcases List.mem_cons.mp hr with rfl | hr
      · omega
      · have := ih hr; omega
  exact hfold t.rows h

/-- `max(chunk_index) + 1` is never taken. -/
theorem ChunkTable.not_holds_nextIndex (t : ChunkTable) : ¬ t.Holds t.nextIndex := by
  rw [UniqueTable.not_holds_iff]
  intro r hr h
  have := ChunkTable.lt_nextIndex hr
  omega

end Inherent
