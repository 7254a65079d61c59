import Inherent.Spec.AppendStore

/-!
# Conversation appends and public chunk edits

One conversation document on which flushes append (`chunk_conversation` reads
`chunk_count` for the first new index, a later store inserts from it) while the
public API appends a chunk at `max(chunk_index) + 1` and deletes chunks by index.

`chunk_count` is the number of rows after every run.  The two services' indices do
collide: a flush skips a chunk exactly when a row holds its index at the store, as
a delete below the last index or a public append since the read makes happen.
-/

namespace Inherent

open EventRun

/-- The document, every chunk count that a flush has read and every batch that a flush
    has stored. -/
structure EditedConversation where
  doc : Option Document := none
  reads : List Nat := []
  batches : List StoreCall := []
  deriving DecidableEq

/-- What can happen to the document. -/
inductive ConversationEdit where
  /-- `chunk_conversation` of a flush reads `get_document_chunk_count`. -/
  | readChunkCount
  /-- The first commit of a flush's batch. -/
  | storeBatch (c : StoreCall)
  /-- A replay at time `now` of the batch with the number `i`. -/
  | replay (i : Nat) (now : Timestamp)
  /-- The public API's `append_document_chunk`. -/
  | appendChunk (c : AppendChunkCall)
  /-- The public API's `delete_document_chunk`. -/
  | deleteChunk (workspaceId : String) (chunkIndex : Nat)
  deriving DecidableEq

namespace EditedConversation

/-- One step.  A batch starts at some chunk count that a flush has read. -/
def step (s : EditedConversation) : ConversationEdit → Option EditedConversation
  | .readChunkCount => some { s with reads := getDocumentChunkCount s.doc :: s.reads }
  | .storeBatch c =>
    if ∃ start ∈ s.reads, c.IsBatchFrom start then
      some { s with doc := (storeProcessedDocument c s.doc).1, batches := s.batches ++ [c] }
    else none
  | .replay i now =>
    match s.batches[i]? with
    | none => none
    | some c => some { s with doc := (storeProcessedDocument (c.replayedAt now) s.doc).1 }
  | .appendChunk c => some { s with doc := (appendDocumentChunk c s.doc).1 }
  | .deleteChunk workspaceId chunkIndex =>
    some { s with doc := (deleteDocumentChunk workspaceId chunkIndex s.doc).1 }

/-- The rows that an append commit adds to the rows of the document. -/
def addedRows (c : StoreCall) (doc : Option Document) : List ChunkRow :=
  (chunkRows (storeProcessedDocument c doc).1).drop (chunkRows doc).length

/-- The chunks of a flush that its first commit did not make rows of their own. -/
def skippedChunks (s : EditedConversation) : ConversationEdit → List ChunkRow
  | .storeBatch c => c.chunkValues.filter fun r => r ∉ addedRows c s.doc
  | _ => []

/-- When the step is the first commit of a flush, the row permits the flush's run and no
    row holds an index of the batch. -/
def IndexFree (s : EditedConversation) : ConversationEdit → Prop
  | .storeBatch c => isActiveRun c.workflowRunId s.doc ∧
      ∀ r ∈ chunkRows s.doc, r.chunkIndex ∉ c.chunks.map DocumentChunk.chunkIndex
  | _ => True

instance (s : EditedConversation) (e : ConversationEdit) : Decidable (IndexFree s e) := by
  cases e <;> unfold IndexFree <;> infer_instance

/-! ## `chunk_count` -/

/-- `chunk_count` is the number of rows. -/
def CountsRows (doc : Option Document) : Prop :=
  (counters doc).1 = (chunkRows doc).length

private theorem countsRows_store {c : StoreCall} {doc : Option Document} (h : CountsRows doc)
    (happ : c.append = true) : CountsRows (storeProcessedDocument c doc).1 := by
  by_cases hact : isActiveRun c.workflowRunId doc
  · have hcount := c.chunkCount_append doc happ
    have hsize := UniqueTable.size_insertAll (c.upsert doc).chunks c.chunkValues
    have hrows : (c.upsert doc).chunks.size = (chunkRows doc).length :=
      congrArg List.length (c.upsert_chunks doc)
    rw [storeProcessedDocument_of_isActiveRun c doc hact]
    show (c.writeChunks doc.isNone (c.upsert doc)).row.chunkCount =
      (c.writeChunks doc.isNone (c.upsert doc)).chunks.size
    unfold CountsRows at h
    -- both sides grow by the number of rows that are inserted
    rw [hcount, c.writeChunks_chunks_of_append _ _ happ, hsize, hrows, h]
  · rw [storeProcessedDocument_of_not_isActiveRun c doc hact]
    exact h

/-- `max(chunk_index) + 1` is free, so a public append adds one row. -/
private theorem countsRows_appendChunk {c : AppendChunkCall} {doc : Option Document}
    (h : CountsRows doc) : CountsRows (appendDocumentChunk c doc).1 := by
  cases doc with
  | none => exact h
  | some d =>
    simp only [appendDocumentChunk]
    split
    · have hfree : ¬ d.chunks.Holds (c.chunkRow d.row d.chunks.nextIndex).chunkIndex :=
        d.chunks.not_holds_nextIndex
      have hlen : d.row.chunkCount = d.chunks.rows.length := h
      show d.row.chunkCount + 1 = (d.chunks.insertNew _).rows.length
      rw [UniqueTable.rows_insertNew_of_not_holds hfree, List.length_append,
        List.length_singleton, hlen]
    · exact h

/-- A delete that finds its chunk removes one row, so the count never meets zero. -/
private theorem countsRows_deleteChunk {ws : String} {i : Nat} {doc : Option Document}
    (h : CountsRows doc) : CountsRows (deleteDocumentChunk ws i doc).1 := by
  cases doc with
  | none => exact h
  | some d =>
    simp only [deleteDocumentChunk]
    split
    · cases hfind : d.chunks.find? i with
      | none => exact h
      | some r =>
        have hholds : d.chunks.Holds i :=
          UniqueTable.holds_iff.mpr ⟨r, UniqueTable.find?_eq_some.mp hfind⟩
        have hsize := UniqueTable.size_erase hholds
        have hlen : d.row.chunkCount = d.chunks.size := h
        show d.row.chunkCount - 1 = (d.chunks.erase i).size
        omega
    · exact h

private theorem countsRows_step (s : EditedConversation) (e : ConversationEdit)
    (s' : EditedConversation)
    (h : CountsRows s.doc ∧ ∀ b ∈ s.batches, b.append = true) (hstep : s.step e = some s') :
    CountsRows s'.doc ∧ ∀ b ∈ s'.batches, b.append = true := by
  obtain ⟨hcount, happ⟩ := h
  cases e with
  | readChunkCount =>
    obtain rfl := Option.some.inj hstep
    exact ⟨hcount, happ⟩
  | storeBatch c =>
    simp only [step] at hstep
    split at hstep
    · rename_i hc
      obtain ⟨start, -, hbatch⟩ := hc
      obtain rfl := Option.some.inj hstep
      refine ⟨countsRows_store hcount hbatch.1, fun b hb => ?_⟩
      cases List.mem_append.mp hb with
      | inl hb => exact happ b hb
      | inr hb => rw [List.mem_singleton.mp hb]; exact hbatch.1
    · exact nomatch hstep
  | replay i now =>
    simp only [step] at hstep
    split at hstep
    · exact nomatch hstep
    · rename_i c hi
      obtain rfl := Option.some.inj hstep
      -- a batch is replayed as the append that it was
      have hreplay : (c.replayedAt now).append = true := happ c (List.mem_of_getElem? hi)
      exact ⟨countsRows_store hcount hreplay, happ⟩
  | appendChunk c =>
    obtain rfl := Option.some.inj hstep
    exact ⟨countsRows_appendChunk hcount, happ⟩
  | deleteChunk ws i =>
    obtain rfl := Option.some.inj hstep
    exact ⟨countsRows_deleteChunk hcount, happ⟩

/-! ## Skipped chunks -/

/-- A first commit that its fence lets through adds the chunks whose index is free. -/
private theorem addedRows_of_isActiveRun {c : StoreCall} {doc : Option Document} {start : Nat}
    (hc : c.IsBatchFrom start) (hact : isActiveRun c.workflowRunId doc) :
    addedRows c doc =
      c.chunkValues.filter fun r => ¬ (c.upsert doc).chunks.Holds r.chunkIndex := by
  have hnd : (c.chunkValues.map ChunkRow.chunkIndex).Nodup := by
    rw [c.chunkValues_chunkIndex, hc.2.2]
    exact List.nodup_range'
  rw [addedRows, storeProcessedDocument_of_isActiveRun c doc hact, chunkRows_some,
    c.writeChunks_chunks_of_append _ _ hc.1, UniqueTable.rows_insertAll hnd, c.upsert_chunks,
    List.drop_left]

/-- No chunk is skipped exactly when the fence passes and the indices are free. -/
private theorem skippedChunks_eq_nil {s s' : EditedConversation} {e : ConversationEdit}
    (hstep : s.step e = some s') : skippedChunks s e = [] ↔ IndexFree s e := by
  cases e with
  | storeBatch c =>
    simp only [step] at hstep
    split at hstep
    · rename_i hc
      obtain ⟨start, -, hbatch⟩ := hc
      have hne : c.chunkValues ≠ [] := fun h =>
        hbatch.2.1 (List.map_eq_nil_iff.mp h)
      by_cases hact : isActiveRun c.workflowRunId s.doc
      · have hidx : ∀ i, (c.upsert s.doc).chunks.Holds i ↔
            ∃ r ∈ chunkRows s.doc, r.chunkIndex = i := by
          intro i
          rw [UniqueTable.holds_iff, c.upsert_chunks]
        simp only [skippedChunks, IndexFree, addedRows_of_isActiveRun hbatch hact,
          List.filter_eq_nil_iff, List.mem_filter, hact, true_and, decide_eq_true_eq, not_not,
          hidx, ← c.chunkValues_chunkIndex, List.mem_map]
        constructor
        · intro h r hr hex
          obtain ⟨k, hk, hki⟩ := hex
          exact (h k hk).2 ⟨r, hr, hki.symm⟩
        · intro h k hk
          refine ⟨hk, fun hex => ?_⟩
          obtain ⟨r, hr, hri⟩ := hex
          exact h r hr ⟨k, hk, hri.symm⟩
      · -- a store that the fence refuses adds no row, and a batch has a chunk to lose
        have hnone : addedRows c s.doc = [] := by
          rw [addedRows, storeProcessedDocument_of_not_isActiveRun c s.doc hact]
          exact List.drop_length
        simp only [skippedChunks, IndexFree, hnone, hact, false_and, iff_false]
        simpa using hne
    · exact nomatch hstep
  | _ => simp only [skippedChunks, IndexFree]

/-! ## Every interleaving -/

/-- Appends and edits do not collide in the run: `chunk_count` is the number of rows, and
    every flushed chunk became a row of its own. -/
def Collisionless (es : List ConversationEdit) (s : EditedConversation) : Prop :=
  (counters s.doc).1 = (chunkRows s.doc).length ∧ collect step skippedChunks {} es = []

instance (es : List ConversationEdit) (s : EditedConversation) :
    Decidable (Collisionless es s) :=
  inferInstanceAs (Decidable (_ ∧ _))

/-- After every run of flushes, replays and edits `chunk_count` is the number of rows. -/
theorem countsRows_of_run {es : List ConversationEdit} {s : EditedConversation}
    (hrun : exec step {} es = some s) : CountsRows s.doc := by
  have hinit : CountsRows none ∧ ∀ b ∈ ([] : List StoreCall), b.append = true :=
    ⟨rfl, fun b hb => nomatch hb⟩
  exact (exec_invariant countsRows_step hinit hrun).1

/-- A run is free of collisions exactly when at every first commit of a flush the row
    permits the flush's run and no row holds an index of the batch. -/
theorem collisionless_iff (es : List ConversationEdit) (s : EditedConversation)
    (hrun : exec step {} es = some s) :
    Collisionless es s ↔ AllSteps step IndexFree {} es := by
  have hcount := countsRows_of_run hrun
  have hskip : collect step skippedChunks {} es = [] ↔ AllSteps step IndexFree {} es := by
    rw [collect_eq_nil_iff hrun]
    exact allSteps_congr_of_exec hrun fun s e s' => skippedChunks_eq_nil
  exact ⟨fun h => hskip.mp h.2, fun h => ⟨hcount, hskip.mpr h⟩⟩

/-- The batch with the texts from the index, as a flush of the conversation stores it. -/
abbrev flushed := AppendLedger.sampleBatch

/-- Two flushes with a public append before the second one's read. -/
def sampleEdits : List ConversationEdit :=
  [.readChunkCount, .storeBatch (flushed 0 ["hello", "there"]),
    .appendChunk { now := 15, workspaceId := "ws", content := "by hand" }, .replay 0 16,
    .readChunkCount, .storeBatch (flushed 3 ["again"]), .deleteChunk "ws" 1]

theorem collisionless_sampleEdits :
    ∃ s, exec step {} sampleEdits = some s ∧
      (Collisionless sampleEdits s ↔ AllSteps step IndexFree {} sampleEdits) :=
  ⟨_, rfl, collisionless_iff sampleEdits _ rfl⟩

/-- Two flushes with a public delete of the first chunk between them. -/
def deletedBetween : List ConversationEdit :=
  [.readChunkCount, .storeBatch (flushed 0 ["hello", "there"]), .deleteChunk "ws" 0,
    .readChunkCount, .storeBatch (flushed 1 ["again"])]

/-- After the delete `chunk_count` is 1 and index 1 is still taken, so the second flush's
    chunk is skipped as if it were a replay. -/
theorem not_collisionless_deletedBetween :
    ¬ ∀ (es : List ConversationEdit) (s : EditedConversation),
      exec step {} es = some s → Collisionless es s := by
  intro h
  have hrun := h deletedBetween _ rfl
  revert hrun
  decide

end EditedConversation

end Inherent
