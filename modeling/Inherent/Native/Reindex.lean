import Inherent.Native.Store

/-!
# Reindexing from PostgreSQL

`reindex_document_from_postgres`
(`src/services/inh-ingestion-svc/src/services/reindex_from_postgres.py`) embeds the chunk rows
that a document has, with the metadata that they have, and stores them through
`store_chunks_with_tenant`.  Neither the file nor the chunker is asked again.
-/

namespace Inherent

/-! ## Reading the rows -/

/-- `get_document_chunks`: `ORDER BY chunk_index LIMIT limit OFFSET offset`. -/
def getDocumentChunks (chunks : ChunkTable) (limit offset : Nat) : List ChunkRow :=
  ((chunks.rows.insertionSort fun a b => a.chunkIndex ≤ b.chunkIndex).drop offset).take limit

/-- `_CHUNK_PAGE_SIZE`. -/
def chunkPageSize : Nat := 200

/-- A page that is not past the end. -/
theorem lt_size_of_getDocumentChunks {chunks : ChunkTable} {limit offset : Nat}
    (h : getDocumentChunks chunks limit offset ≠ []) : offset < chunks.size := by
  by_contra hge
  apply h
  rw [getDocumentChunks, List.drop_of_length_le, List.take_nil]
  rw [List.length_insertionSort]
  exact Nat.le_of_not_lt hge

/-- The loop of `_load_all_chunks`, from an offset on. -/
def loadChunksFrom (chunks : ChunkTable) (offset : Nat) : List ChunkRow :=
  if getDocumentChunks chunks chunkPageSize offset = [] then []
  else if (getDocumentChunks chunks chunkPageSize offset).length < chunkPageSize then
    getDocumentChunks chunks chunkPageSize offset
  else
    getDocumentChunks chunks chunkPageSize offset ++
      loadChunksFrom chunks (offset + chunkPageSize)
termination_by chunks.size - offset
decreasing_by
  rename_i hpage _
  have := lt_size_of_getDocumentChunks hpage
  have : 0 < chunkPageSize := by decide
  omega

/-- `_load_all_chunks`. -/
def loadAllChunks (chunks : ChunkTable) : List ChunkRow := loadChunksFrom chunks 0

/-! ## Storing the objects -/

/-- What `store_chunks_with_tenant` is called with besides the chunks. -/
structure StoreChunksCall where
  documentId : String
  workspaceId : String
  userId : String
  originalFilename : String
  contentType : String
  sourceUri : Option String := none
  sourceUrl : Option String := none
  deriving DecidableEq, Repr

namespace StoreChunksCall

/-- The object of a chunk. -/
def vectorObject (call : StoreChunksCall) (ingestTime : Timestamp) (chunk : DocumentChunk) :
    VectorObject :=
  -- `chunk.metadata or {}`
  let chunkMeta := chunk.metadata.getD {}
  { documentId := call.documentId
    workspaceId := call.workspaceId
    userId := call.userId
    content := chunk.content
    chunkIndex := chunk.chunkIndex
    startChar := chunk.startChar
    endChar := chunk.endChar
    originalFilename := call.originalFilename
    contentType := call.contentType
    createdAt := ingestTime
    contentHash := ⟨chunk.content⟩
    sourceUri := call.sourceUri
    sourceUrl := call.sourceUrl
    ingestedAt := ingestTime
    contentRisk := orDefault chunkMeta.contentRisk "none"
    contentRiskReasons := chunkMeta.contentRiskReasons
    chunkingStrategy := orDefault chunkMeta.chunkingStrategy ""
    tags := chunkMeta.tagsWeaviate
    sectionHeading := orDefault chunkMeta.sectionHeading ""
    reuseCount := 0
    turn := chunkMeta.turn.map fun t => { t with client := some (orDefault t.client "") } }

/-- `store_chunks_with_tenant` of the chunks; it raises when there are `failed_objects`. -/
def storeChunks (call : StoreChunksCall) (ingestTime : Timestamp) (chunks : List DocumentChunk)
    (landed : List Bool) (objects : ObjectTable) : ObjectTable × Bool :=
  let batch := (chunks.map (call.vectorObject ingestTime)).zip landed
  let written := batch.filterMap fun p => if p.2 then some p.1 else none
  (objects.putAll written, written.length = chunks.length)

end StoreChunksCall

/-- The call that `store_in_weaviate` makes. -/
def StoreDocumentInput.storeChunksCall (input : StoreDocumentInput) : StoreChunksCall where
  documentId := input.documentId
  workspaceId := input.workspaceId
  userId := input.userId
  originalFilename := input.originalFilename
  contentType := input.contentType
  sourceUri := some input.storagePath
  sourceUrl := input.sourceUrl

/-! ## The reindex -/

/-- `ReindexResult`. -/
structure ReindexResult where
  documentId : String
  chunksEmbedded : Nat
  skipped : Bool := false
  reason : Option String := none
  deriving DecidableEq, Repr

/-- The `DocumentChunk` of a row. -/
def ChunkRow.toDocumentChunk (row : ChunkRow) (documentId : String) : DocumentChunk where
  documentId := documentId
  content := row.content
  chunkIndex := row.chunkIndex
  startChar := row.startChar
  endChar := row.endChar
  tokenCount := some row.tokenCount
  metadata := row.metadata

/-- The call that the reindex makes. -/
def ProcessedDocument.storeChunksCall (row : ProcessedDocument) (documentId : String) :
    StoreChunksCall where
  documentId := documentId
  workspaceId := row.workspaceId
  userId := row.userId
  originalFilename :=
    if row.originalFilename ≠ "" then row.originalFilename
    else if row.filename ≠ "" then row.filename
    else documentId
  contentType := if row.contentType = "" then "application/octet-stream" else row.contentType
  -- `storage_path or storage_url`
  sourceUri := if row.storagePath = "" then row.storageUrl else some row.storagePath
  sourceUrl := row.sourceUrl

/-- How the services that the reindex calls behave. -/
structure ReindexServices where
  /-- The chunk indices whose objects `delete_document_chunks_graceful` takes: none when
      Weaviate is not ready, and a delete that fails may have taken some. -/
  deleted : List Nat
  /-- The time of the store. -/
  now : Timestamp
  /-- Which objects Weaviate takes. -/
  landed : List Bool
  /-- The store raises for another reason than `failed_objects`. -/
  error : Bool := false
  deriving DecidableEq, Repr

/-- `reindex_document_from_postgres`: the document's objects in its tenant after it, and its
    result, `none` when it raises. -/
def reindexDocumentFromPostgres (services : ReindexServices) (documentId : String)
    (doc : Option Document) (objects : ObjectTable) : ObjectTable × Option ReindexResult :=
  match doc with
  | none =>
    (objects, some
      { documentId := documentId
        chunksEmbedded := 0
        skipped := true
        reason := some "document not found in processed_documents" })
  | some d =>
    let rows := loadAllChunks d.chunks
    if rows = [] then
      (objects, some
        { documentId := documentId
          chunksEmbedded := 0
          skipped := true
          reason := some "no chunks stored in document_chunks — nothing to embed" })
    else
      let chunks := (rows.insertionSort fun a b => a.chunkIndex ≤ b.chunkIndex).map
        fun row => row.toDocumentChunk documentId
      -- whether the delete has worked is logged only
      let cleared := objects.filter fun o => o.chunkIndex ∉ services.deleted
      let stored := (d.row.storeChunksCall documentId).storeChunks services.now chunks
        services.landed cleared
      (stored.1,
        if stored.2 && !services.error then
          some { documentId := documentId, chunksEmbedded := chunks.length }
        else none)

end Inherent
