import Inherent.Native.Store
import Inherent.Spec.Database

/-!
# What a commit of `store_in_postgresql` writes

The commit is fenced by `active_run_id`.  When the fence passes, an append keeps the rows
that are there and inserts the chunks whose index is free, and a replacing store leaves
exactly its own chunks.
-/

namespace Inherent

/-- The row holds the staged chunk. -/
def ChunkRow.HoldsChunk (row : ChunkRow) (chunk : StagedChunk) : Prop :=
  row.chunkIndex = chunk.chunkIndex ∧ row.content = chunk.content ∧
    row.startChar = chunk.startChar ∧ row.endChar = chunk.endChar ∧
    row.metadata = chunk.riskMetadata

instance (row : ChunkRow) (chunk : StagedChunk) : Decidable (row.HoldsChunk chunk) :=
  inferInstanceAs (Decidable (_ ∧ _ ∧ _ ∧ _ ∧ _))

/-- Every one of the chunks is a row of the document. -/
def HoldsChunks (doc : Option Document) (chunks : List StagedChunk) : Prop :=
  ∀ chunk ∈ chunks, ∃ row ∈ chunkRows doc, row.HoldsChunk chunk

instance (doc : Option Document) (chunks : List StagedChunk) :
    Decidable (HoldsChunks doc chunks) :=
  inferInstanceAs (Decidable (∀ chunk ∈ chunks, _))

theorem HoldsChunks.mono {doc doc' : Option Document} {chunks : List StagedChunk}
    (h : HoldsChunks doc chunks) (hrows : ∀ row ∈ chunkRows doc, row ∈ chunkRows doc') :
    HoldsChunks doc' chunks := by
  intro chunk hchunk
  obtain ⟨row, hrow, hholds⟩ := h chunk hchunk
  exact ⟨row, hrows row hrow, hholds⟩

/-- The row that a store writes for a staged chunk holds the chunk. -/
theorem holdsChunk_chunkRow (call : StoreCall) (chunk : StagedChunk) :
    (call.chunkRow chunk.toDocumentChunk).HoldsChunk chunk :=
  ⟨rfl, rfl, rfl, rfl, rfl⟩

/-- A staged chunk of the call has a row among the rows that the call inserts. -/
private theorem mem_chunkValues {input : StoreDocumentInput} {now : Timestamp}
    {staged : List StagedChunk} {row : ChunkRow} :
    row ∈ (input.storeCall now staged).chunkValues ↔
      ∃ chunk ∈ staged, (input.storeCall now staged).chunkRow chunk.toDocumentChunk = row := by
  simp only [StoreCall.chunkValues, StoreDocumentInput.storeCall, List.map_map, List.mem_map,
    Function.comp_apply]

/-- A commit that the fence refuses changes nothing. -/
theorem storeInPostgresql_of_not_isActiveRun (input : StoreDocumentInput) (now : Timestamp)
    (staged : List StagedChunk) (doc : Option Document)
    (h : ¬ isActiveRun input.workflowRunId doc) :
    storeInPostgresql input now staged doc = (doc, .supersededByNewerRun) := by
  have hstore := storeProcessedDocument_of_not_isActiveRun (input.storeCall now staged) doc h
  simp only [storeInPostgresql, hstore]

/-- A commit whose fence passes upserts the row and writes the chunks. -/
theorem storeInPostgresql_of_isActiveRun (input : StoreDocumentInput) (now : Timestamp)
    (staged : List StagedChunk) (doc : Option Document)
    (h : isActiveRun input.workflowRunId doc) :
    storeInPostgresql input now staged doc =
      (some ((input.storeCall now staged).writeChunks doc.isNone
        ((input.storeCall now staged).upsert doc)),
        { success := true, chunksStored := staged.length, documentRowInserted := doc.isNone }) := by
  have hstore := storeProcessedDocument_of_isActiveRun (input.storeCall now staged) doc h
  simp only [storeInPostgresql, hstore]

/-- A commit leaves the path of a row that is there. -/
theorem storedPath_storeInPostgresql {input : StoreDocumentInput} {now : Timestamp}
    {staged : List StagedChunk} {doc : Option Document} {path : String}
    (h : storedPath doc = some path) :
    storedPath (storeInPostgresql input now staged doc).1 = some path := by
  have hstore := storedPath_storeProcessedDocument (c := input.storeCall now staged) h
  unfold storeInPostgresql
  split <;> rename_i heq <;> rw [heq] at hstore <;> exact hstore

/-! ## An append -/

/-- The rows after an append whose fence passes. -/
private theorem chunkRows_append {input : StoreDocumentInput} {now : Timestamp}
    {staged : List StagedChunk} {doc : Option Document} (happ : input.append = true)
    (h : isActiveRun input.workflowRunId doc) :
    chunkRows (storeInPostgresql input now staged doc).1 =
      (((input.storeCall now staged).upsert doc).chunks.insertAll
        (input.storeCall now staged).chunkValues).rows := by
  rw [storeInPostgresql_of_isActiveRun input now staged doc h, chunkRows_some,
    StoreCall.writeChunks_chunks_of_append _ _ _ happ]

/-- An append removes no row. -/
theorem mem_chunkRows_of_append {input : StoreDocumentInput} (now : Timestamp)
    (staged : List StagedChunk) {doc : Option Document} {row : ChunkRow}
    (happ : input.append = true) (hrow : row ∈ chunkRows doc) :
    row ∈ chunkRows (storeInPostgresql input now staged doc).1 := by
  by_cases h : isActiveRun input.workflowRunId doc
  · rw [chunkRows_append happ h]
    apply UniqueTable.mem_insertAll_of_mem
    rw [StoreCall.upsert_chunks]
    exact hrow
  · rw [storeInPostgresql_of_not_isActiveRun input now staged doc h]
    exact hrow

/-- After an append whose fence passes the chunks are rows, if their indices are distinct
    and each is free or taken by a row that holds the chunk. -/
theorem holdsChunks_append {input : StoreDocumentInput} (now : Timestamp)
    {staged : List StagedChunk} {doc : Option Document} (happ : input.append = true)
    (h : isActiveRun input.workflowRunId doc)
    (hnd : (staged.map StagedChunk.chunkIndex).Nodup)
    (htaken : ∀ chunk ∈ staged, ∀ row ∈ chunkRows doc, row.chunkIndex = chunk.chunkIndex →
      row.HoldsChunk chunk) :
    HoldsChunks (storeInPostgresql input now staged doc).1 staged := by
  intro chunk hchunk
  rw [chunkRows_append happ h]
  have hnew : (input.storeCall now staged).chunkRow chunk.toDocumentChunk ∈
      (input.storeCall now staged).chunkValues := mem_chunkValues.mpr ⟨chunk, hchunk, rfl⟩
  have hkey := UniqueTable.holds_insertAll (t := ((input.storeCall now staged).upsert doc).chunks) hnew
  obtain ⟨row, hrow, hindex⟩ := UniqueTable.holds_iff.mp hkey
  refine ⟨row, hrow, ?_⟩
  cases UniqueTable.mem_of_mem_insertAll hrow with
  | inl hold =>
    rw [StoreCall.upsert_chunks] at hold
    exact htaken chunk hchunk row hold hindex
  | inr hins =>
    -- the row was inserted for a chunk with the same index, so for this one
    obtain ⟨chunk', hchunk', rfl⟩ := mem_chunkValues.mp hins
    obtain rfl : chunk' = chunk := List.inj_on_of_nodup_map hnd hchunk' hchunk hindex
    exact holdsChunk_chunkRow _ chunk'

/-! ## A replacing store -/

/-- The rows of the document hold the chunks, one for one and in order. -/
def HoldsExactly (doc : Option Document) (chunks : List StagedChunk) : Prop :=
  List.Forall₂ ChunkRow.HoldsChunk (chunkRows doc) chunks

instance (doc : Option Document) (chunks : List StagedChunk) :
    Decidable (HoldsExactly doc chunks) :=
  inferInstanceAs (Decidable (List.Forall₂ _ _ _))

/-- After a replacing store whose fence passes the rows are exactly the chunks, if their
    indices are distinct. -/
theorem holdsExactly_replace (input : StoreDocumentInput) (now : Timestamp)
    {staged : List StagedChunk} {doc : Option Document} (happ : input.append = false)
    (h : isActiveRun input.workflowRunId doc)
    (hnd : (staged.map StagedChunk.chunkIndex).Nodup) :
    HoldsExactly (storeInPostgresql input now staged doc).1 staged := by
  have hindex : (input.storeCall now staged).chunkValues.map ChunkRow.chunkIndex =
      staged.map StagedChunk.chunkIndex := by
    rw [StoreCall.chunkValues_chunkIndex]
    simp only [StoreDocumentInput.storeCall, List.map_map]
    rfl
  unfold HoldsExactly
  rw [storeInPostgresql_of_isActiveRun input now staged doc h, chunkRows_some,
    StoreCall.writeChunks_rows_of_not_append _ _ _ happ (by rw [hindex]; exact hnd)]
  simp only [StoreCall.chunkValues, StoreDocumentInput.storeCall, List.map_map,
    List.forall₂_map_left_iff]
  exact List.forall₂_same.mpr fun chunk _ => holdsChunk_chunkRow _ chunk

theorem HoldsExactly.holdsChunks {doc : Option Document} {chunks : List StagedChunk}
    (h : HoldsExactly doc chunks) : HoldsChunks doc chunks := by
  intro chunk hchunk
  obtain ⟨i, hi, rfl⟩ := List.getElem_of_mem hchunk
  have hlen : i < (chunkRows doc).length := by
    rw [h.length_eq]
    exact hi
  exact ⟨_, List.getElem_mem hlen, h.get hlen hi⟩

end Inherent
