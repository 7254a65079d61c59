import Inherent.Native.Database

/-!
# What the database services do to one document

One lemma for each service: which write it makes, and when it makes none.  The
claims about runs of these services use these lemmas and never unfold a service.

The fence of `store_processed_document`, `update_document_status` and
`is_active_run` is one predicate (`isActiveRun`), so "the write takes effect" is
stated the same way for all of them.
-/

namespace Inherent

/-- The chunk rows of a document that may not exist. -/
def chunkRows (doc : Option Document) : List ChunkRow :=
  match doc with
  | none => []
  | some d => d.chunks.rows

@[simp] theorem chunkRows_none : chunkRows none = [] := rfl

@[simp] theorem chunkRows_some (d : Document) : chunkRows (some d) = d.chunks.rows := rfl

/-! ## The fence -/

@[simp] theorem isActiveRun_none (r : RunId) : isActiveRun r none := by
  simp only [isActiveRun, Option.mem_def, reduceCtorEq, false_implies, implies_true]

@[simp] theorem isActiveRun_some (r : RunId) (d : Document) :
    isActiveRun r (some d) ↔ d.row.permits r := by
  simp only [isActiveRun, Option.mem_def, Option.some.injEq, forall_eq']

/-! ## `store_processed_document` -/

/-- The document after the upsert of a store whose fence passes, before its chunks
    are written. -/
def StoreCall.upsert (c : StoreCall) : Option Document → Document
  | none => ⟨c.insertValues, .empty⟩
  | some d => { d with row := c.updateSet d.row }

/-- A store whose fence passes upserts the row and writes the chunks. -/
theorem storeProcessedDocument_of_isActiveRun (c : StoreCall) (doc : Option Document)
    (h : isActiveRun c.workflowRunId doc) :
    storeProcessedDocument c doc =
      (some (c.writeChunks doc.isNone (c.upsert doc)), some ⟨doc.isNone⟩) := by
  cases doc with
  | none => rfl
  | some d =>
    have hp : d.row.permits c.workflowRunId := (isActiveRun_some _ d).mp h
    simp only [storeProcessedDocument, if_pos hp]
    rfl

/-- A store whose fence does not pass changes nothing and returns `None`. -/
theorem storeProcessedDocument_of_not_isActiveRun (c : StoreCall) (doc : Option Document)
    (h : ¬ isActiveRun c.workflowRunId doc) :
    storeProcessedDocument c doc = (doc, none) := by
  cases doc with
  | none => exact absurd (isActiveRun_none _) h
  | some d =>
    have hp : ¬ d.row.permits c.workflowRunId := fun hp => h ((isActiveRun_some _ d).mpr hp)
    simp only [storeProcessedDocument, if_neg hp]

/-- The store returns `None` exactly when its fence does not pass. -/
theorem storeProcessedDocument_snd_eq_none (c : StoreCall) (doc : Option Document) :
    (storeProcessedDocument c doc).2 = none ↔ ¬ isActiveRun c.workflowRunId doc := by
  by_cases h : isActiveRun c.workflowRunId doc
  · simp [storeProcessedDocument_of_isActiveRun c doc h, h]
  · simp [storeProcessedDocument_of_not_isActiveRun c doc h, h]

@[simp] theorem StoreCall.upsert_activeRunId (c : StoreCall) (doc : Option Document) :
    (c.upsert doc).row.activeRunId = some c.workflowRunId := by
  cases doc <;> rfl

@[simp] theorem StoreCall.upsert_status (c : StoreCall) (doc : Option Document) :
    (c.upsert doc).row.status = .processed := by
  cases doc <;> rfl

@[simp] theorem StoreCall.upsert_chunks (c : StoreCall) (doc : Option Document) :
    (c.upsert doc).chunks.rows = chunkRows doc := by
  cases doc <;> rfl

/-- Writing the chunks changes nothing in the row but the counters. -/
private theorem StoreCall.writeChunks_row (c : StoreCall) (b : Bool) (d : Document) :
    (c.writeChunks b d).row = d.row ∨ ∃ n, (c.writeChunks b d).row = c.grow b n d.row := by
  unfold StoreCall.writeChunks
  dsimp only
  generalize (if c.append then d.chunks else .empty : ChunkTable).inserted c.chunkValues = n
  split
  · exact Or.inr ⟨n, rfl⟩
  · exact Or.inl rfl

@[simp] theorem StoreCall.writeChunks_activeRunId (c : StoreCall) (b : Bool) (d : Document) :
    (c.writeChunks b d).row.activeRunId = d.row.activeRunId := by
  obtain h | ⟨n, h⟩ := c.writeChunks_row b d <;> simp only [h, StoreCall.grow]

@[simp] theorem StoreCall.writeChunks_activeRunClaimedAt (c : StoreCall) (b : Bool)
    (d : Document) :
    (c.writeChunks b d).row.activeRunClaimedAt = d.row.activeRunClaimedAt := by
  obtain h | ⟨n, h⟩ := c.writeChunks_row b d <;> simp only [h, StoreCall.grow]

@[simp] theorem StoreCall.writeChunks_status (c : StoreCall) (b : Bool) (d : Document) :
    (c.writeChunks b d).row.status = d.row.status := by
  obtain h | ⟨n, h⟩ := c.writeChunks_row b d <;> simp only [h, StoreCall.grow]

@[simp] theorem StoreCall.writeChunks_storagePath (c : StoreCall) (b : Bool) (d : Document) :
    (c.writeChunks b d).row.storagePath = d.row.storagePath := by
  obtain h | ⟨n, h⟩ := c.writeChunks_row b d <;> simp only [h, StoreCall.grow]

/-- An append inserts its rows into the rows that are there. -/
theorem StoreCall.writeChunks_chunks_of_append (c : StoreCall) (b : Bool) (d : Document)
    (happ : c.append = true) :
    (c.writeChunks b d).chunks = d.chunks.insertAll c.chunkValues := by
  simp only [StoreCall.writeChunks, if_pos happ]

/-- A replacing call leaves exactly its own rows, when their indices are distinct. -/
theorem StoreCall.writeChunks_rows_of_not_append (c : StoreCall) (b : Bool) (d : Document)
    (happ : c.append = false) (hnd : (c.chunkValues.map ChunkRow.chunkIndex).Nodup) :
    (c.writeChunks b d).chunks.rows = c.chunkValues := by
  have hempty : ∀ r ∈ c.chunkValues,
      ¬ (UniqueTable.empty : ChunkTable).Holds (ChunkRow.chunkIndex r) := by
    intro r _ h
    exact List.not_mem_nil h
  simp only [StoreCall.writeChunks, happ, Bool.false_eq_true, if_false]
  rw [UniqueTable.rows_insertAll_of_free hnd hempty]
  rfl

/-- A replacing call leaves the row as the upsert has made it. -/
theorem StoreCall.writeChunks_row_of_not_append (c : StoreCall) (b : Bool) (d : Document)
    (happ : c.append = false) : (c.writeChunks b d).row = d.row := by
  simp only [StoreCall.writeChunks, happ, Bool.false_eq_true, false_and, if_false]

/-- The upsert of a replacing call sets the chunk count. -/
theorem StoreCall.upsert_chunkCount_of_not_append (c : StoreCall) (doc : Option Document)
    (happ : c.append = false) : (c.upsert doc).row.chunkCount = c.chunks.length := by
  cases doc with
  | none => simp only [StoreCall.upsert, StoreCall.insertValues, happ, Bool.false_eq_true, if_false]
  | some d => simp only [StoreCall.upsert, StoreCall.updateSet, happ, Bool.false_eq_true, if_false]

/-- The chunk indices of the rows of a store are those of its chunks. -/
theorem StoreCall.chunkValues_chunkIndex (c : StoreCall) :
    c.chunkValues.map ChunkRow.chunkIndex = c.chunks.map DocumentChunk.chunkIndex := by
  simp only [StoreCall.chunkValues, List.map_map]
  rfl

@[simp] theorem StoreCall.length_chunkValues (c : StoreCall) :
    c.chunkValues.length = c.chunks.length := by
  simp only [StoreCall.chunkValues, List.length_map]

/-! ### The counters of an append -/

/-- The counters of a document that may not exist: `chunk_count`, `text_length` and
    `size_bytes`. -/
def counters (doc : Option Document) : Nat × Nat × Nat :=
  match doc with
  | none => (0, 0, 0)
  | some d => (d.row.chunkCount, d.row.textLength, d.row.sizeBytes)

/-- An append that inserts `n > 0` rows grows `chunk_count` by `n` and the other two
    counters by the values of the call, whether or not it created the row. -/
theorem StoreCall.counters_append (c : StoreCall) (doc : Option Document)
    (happ : c.append = true)
    (hnew : (c.upsert doc).chunks.inserted c.chunkValues ≠ 0) :
    counters (some (c.writeChunks doc.isNone (c.upsert doc))) =
      ((counters doc).1 + (c.upsert doc).chunks.inserted c.chunkValues,
        (counters doc).2.1 + c.textLength, (counters doc).2.2 + c.message.sizeBytes) := by
  simp only [counters, StoreCall.writeChunks, happ, if_true, true_and, ne_eq, hnew,
    not_false_eq_true, StoreCall.grow]
  cases doc with
  -- the row of the `INSERT` has `size_bytes` already, and `row_was_inserted` keeps
  -- the growing step from adding it again
  | none => simp [StoreCall.upsert, StoreCall.insertValues, happ]
  | some d => simp [StoreCall.upsert, StoreCall.updateSet, happ]

/-- An append to a row that is there leaves the counters alone when it inserts no row:
    a replay of chunks that are stored. -/
theorem StoreCall.counters_append_replay (c : StoreCall) (d : Document)
    (happ : c.append = true)
    (hnew : d.chunks.inserted c.chunkValues = 0) :
    counters (some (c.writeChunks false (c.upsert (some d)))) = counters (some d) := by
  simp [counters, StoreCall.writeChunks, happ, hnew, StoreCall.upsert, StoreCall.updateSet]

/-- An append to a row that is there grows `chunk_count` by the rows it inserts. -/
theorem StoreCall.chunkCount_append (c : StoreCall) (doc : Option Document)
    (happ : c.append = true) :
    (c.writeChunks doc.isNone (c.upsert doc)).row.chunkCount =
      (counters doc).1 + (c.upsert doc).chunks.inserted c.chunkValues := by
  have hseed : (c.upsert doc).row.chunkCount = (counters doc).1 := by
    cases doc with
    | none => simp only [StoreCall.upsert, StoreCall.insertValues, happ, if_true, counters]
    | some d => simp only [StoreCall.upsert, StoreCall.updateSet, happ, if_true, counters]
  simp only [StoreCall.writeChunks, happ, if_true, true_and, ← hseed]
  split
  · rfl
  · omega

/-! ## `update_document_status` -/

/-- A status write of a run takes effect exactly when the row is there and permits
    the run. -/
theorem updateDocumentStatus_snd (c : StatusCall) (r : RunId) (doc : Option Document)
    (hr : c.workflowRunId = some r) :
    (updateDocumentStatus c doc).2 = true ↔ doc ≠ none ∧ isActiveRun r doc := by
  cases doc with
  | none => simp [updateDocumentStatus]
  | some d =>
    simp only [updateDocumentStatus, hr, Option.mem_def, Option.some.injEq, forall_eq']
    split <;> simp_all

/-- A status write that takes effect sets the columns of `StatusCall.set`. -/
theorem updateDocumentStatus_of_isActiveRun (c : StatusCall) (r : RunId) (d : Document)
    (hr : c.workflowRunId = some r) (h : isActiveRun r (some d)) :
    updateDocumentStatus c (some d) = (some { d with row := c.set d.row }, true) := by
  have hp : ∀ r' ∈ c.workflowRunId, d.row.permits r' := by
    intro r' hr'
    rw [hr, Option.mem_def, Option.some.injEq] at hr'
    exact hr' ▸ (isActiveRun_some r d).mp h
  simp only [updateDocumentStatus, if_pos hp]

/-- A status write of a run that the row does not permit changes nothing. -/
theorem updateDocumentStatus_of_not_isActiveRun (c : StatusCall) (r : RunId)
    (doc : Option Document) (hr : c.workflowRunId = some r) (h : ¬ isActiveRun r doc) :
    updateDocumentStatus c doc = (doc, false) := by
  cases doc with
  | none => exact absurd (isActiveRun_none r) h
  | some d =>
    have hp : ¬ ∀ r' ∈ c.workflowRunId, d.row.permits r' := fun hp =>
      h ((isActiveRun_some r d).mpr (hp r hr))
    simp only [updateDocumentStatus, if_neg hp]

/-- Only a claim and a store change who owns the row. -/
@[simp] theorem StatusCall.set_activeRunId (c : StatusCall) (row : ProcessedDocument) :
    (c.set row).activeRunId = row.activeRunId := rfl

@[simp] theorem StatusCall.set_activeRunClaimedAt (c : StatusCall) (row : ProcessedDocument) :
    (c.set row).activeRunClaimedAt = row.activeRunClaimedAt := rfl

/-! ## What the writes leave alone -/

@[simp] theorem chunkRows_updateDocumentStatus (c : StatusCall) (doc : Option Document) :
    chunkRows (updateDocumentStatus c doc).1 = chunkRows doc := by
  cases doc with
  | none => rfl
  | some d =>
    simp only [updateDocumentStatus]
    split <;> rfl

@[simp] theorem chunkRows_createPendingDocument (c : PendingCall) (doc : Option Document) :
    chunkRows (createPendingDocument c doc).1 = chunkRows doc := by
  cases doc <;> rfl

@[simp] theorem chunkRows_createOrResetPendingDocument (c : ResetCall) (doc : Option Document) :
    chunkRows (some (createOrResetPendingDocument c doc)) = chunkRows doc := by
  cases doc <;> rfl

@[simp] theorem chunkRows_markDocumentFailed (workspaceId errorMessage : String) (now : Timestamp)
    (doc : Option Document) :
    chunkRows (markDocumentFailed workspaceId errorMessage now doc) = chunkRows doc := by
  cases doc with
  | none => rfl
  | some d =>
    simp only [markDocumentFailed]
    split <;> rfl

/-- The storage path of the row. -/
def storedPath (doc : Option Document) : Option String := doc.map fun d => d.row.storagePath

@[simp] theorem storedPath_updateDocumentStatus (c : StatusCall) (doc : Option Document) :
    storedPath (updateDocumentStatus c doc).1 = storedPath doc := by
  cases doc with
  | none => rfl
  | some d =>
    simp only [updateDocumentStatus]
    split <;> rfl

@[simp] theorem storedPath_markDocumentFailed (workspaceId errorMessage : String) (now : Timestamp)
    (doc : Option Document) :
    storedPath (markDocumentFailed workspaceId errorMessage now doc) = storedPath doc := by
  cases doc with
  | none => rfl
  | some d =>
    simp only [markDocumentFailed]
    split <;> rfl

/-- A claim leaves the path of a row that is there. -/
theorem storedPath_createPendingDocument {c : PendingCall} {doc : Option Document} {path : String}
    (h : storedPath doc = some path) : storedPath (createPendingDocument c doc).1 = some path := by
  cases doc with
  | none => exact nomatch h
  | some d =>
    rw [← h]
    simp only [createPendingDocument, PendingCall.claim]
    split <;> rfl

/-- So does a store. -/
theorem storedPath_storeProcessedDocument {c : StoreCall} {doc : Option Document} {path : String}
    (h : storedPath doc = some path) : storedPath (storeProcessedDocument c doc).1 = some path := by
  by_cases hactive : isActiveRun c.workflowRunId doc
  · cases doc with
    | none => exact nomatch h
    | some d =>
      rw [storeProcessedDocument_of_isActiveRun c (some d) hactive, ← h]
      simp [storedPath, StoreCall.upsert, StoreCall.updateSet]
  · rw [storeProcessedDocument_of_not_isActiveRun c doc hactive]
    exact h

/-- A reset of the row sets it. -/
theorem storedPath_createOrResetPendingDocument (c : ResetCall) (doc : Option Document) :
    storedPath (some (createOrResetPendingDocument c doc)) = some c.storagePath := by
  cases doc <;> rfl

end Inherent
