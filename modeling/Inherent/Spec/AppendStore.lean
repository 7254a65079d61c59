import Inherent.ForStd.Run
import Inherent.Spec.Database

/-!
# Append-mode storing is idempotent and lossless

The appends of one document: each batch is chunked against the `chunk_count` read
after all earlier batches, stored once, and replayed any number of times at any
later point.  `AppendLedger.IsComplete` says that the tables hold exactly what the
batches handed over, each counted once; it holds after every run of these steps.

The batches are nonempty: the flush returns before it stores anything when
`chunk_conversation` reports no chunk, which `store_processed_document` relies on
when it takes the inserted row count for the sign that a payload is new.
-/

namespace Inherent

open EventRun

/-- The document, the batches stored so far with the arguments of their first
    commit, and the `chunk_count` read since the last of them. -/
structure AppendLedger where
  doc : Option Document := none
  batches : List StoreCall := []
  startIndex : Option Nat := none
  deriving DecidableEq

/-- What can happen to the document. -/
inductive AppendStep where
  /-- `chunk_conversation` reads `get_document_chunk_count`. -/
  | readChunkCount
  /-- The first commit of a new batch. -/
  | storeBatch (c : StoreCall)
  /-- A replay at time `now` of the batch with the number `i`. -/
  | replay (i : Nat) (now : Timestamp)
  deriving DecidableEq

/-- A batch as its caller builds it: an append of at least one chunk, with the
    contiguous indices from the chunk count that was read. -/
def StoreCall.IsBatchFrom (c : StoreCall) (startIndex : Nat) : Prop :=
  c.append = true ∧ c.chunks ≠ [] ∧
    c.chunks.map DocumentChunk.chunkIndex = List.range' startIndex c.chunks.length

instance (c : StoreCall) (startIndex : Nat) : Decidable (c.IsBatchFrom startIndex) :=
  inferInstanceAs (Decidable (_ ∧ _ ∧ _))

/-- A replay runs the store again with its own clock. -/
def StoreCall.replayedAt (c : StoreCall) (now : Timestamp) : StoreCall := { c with now := now }

namespace AppendLedger

/-- One step; a store is enabled only when its fence passes. -/
def step (s : AppendLedger) : AppendStep → Option AppendLedger
  | .readChunkCount => some { s with startIndex := some (getDocumentChunkCount s.doc) }
  | .storeBatch c =>
    match s.startIndex with
    | none => none
    | some start =>
      if c.IsBatchFrom start ∧ isActiveRun c.workflowRunId s.doc then
        some { doc := (storeProcessedDocument c s.doc).1
               batches := s.batches ++ [c]
               startIndex := none }
      else none
  | .replay i now =>
    match s.batches[i]? with
    | none => none
    | some c =>
      if isActiveRun c.workflowRunId s.doc then
        some { s with doc := (storeProcessedDocument (c.replayedAt now) s.doc).1 }
      else none

/-- The tables hold the concatenation of the batches, each batch counted once. -/
structure IsComplete (s : AppendLedger) : Prop where
  rows_eq : chunkRows s.doc = s.batches.flatMap StoreCall.chunkValues
  index_eq : (chunkRows s.doc).map ChunkRow.chunkIndex = List.range (chunkRows s.doc).length
  chunkCount_eq : (counters s.doc).1 = (chunkRows s.doc).length
  textLength_eq : (counters s.doc).2.1 = (s.batches.map StoreCall.textLength).sum
  sizeBytes_eq : (counters s.doc).2.2 = (s.batches.map fun c => c.message.sizeBytes).sum

/-! ## What one step preserves -/

/-- A read since the last batch still gives the chunk count: replays do not move it. -/
private structure Inv (s : AppendLedger) : Prop where
  complete : s.IsComplete
  start_eq : ∀ start ∈ s.startIndex, start = (chunkRows s.doc).length
  exists_of_batch : s.batches ≠ [] → s.doc ≠ none

private theorem getDocumentChunkCount_eq (doc : Option Document) :
    getDocumentChunkCount doc = (counters doc).1 := by
  cases doc <;> rfl

/-- The indices from the number of rows on are free. -/
private theorem batch_free {s : AppendLedger} {c : StoreCall} (h : s.IsComplete)
    (hc : c.IsBatchFrom (chunkRows s.doc).length) :
    (c.chunkValues.map ChunkRow.chunkIndex).Nodup ∧
      ∀ r ∈ c.chunkValues, ¬ (c.upsert s.doc).chunks.Holds (ChunkRow.chunkIndex r) := by
  obtain ⟨-, -, hidx⟩ := hc
  rw [c.chunkValues_chunkIndex, hidx]
  refine ⟨List.nodup_range', fun r hr hh => ?_⟩
  have hmem : r.chunkIndex ∈ c.chunkValues.map ChunkRow.chunkIndex := List.mem_map_of_mem hr
  rw [c.chunkValues_chunkIndex, hidx, List.mem_range'_1] at hmem
  rw [UniqueTable.Holds, c.upsert_chunks, h.index_eq, List.mem_range] at hh
  -- a taken index is below the number of rows, one of the batch is not
  omega

/-- The first commit of a batch appends its rows and its values. -/
private theorem inv_storeBatch {s : AppendLedger} {c : StoreCall} (h : s.Inv)
    (hc : c.IsBatchFrom (chunkRows s.doc).length) (hfence : isActiveRun c.workflowRunId s.doc) :
    Inv { doc := (storeProcessedDocument c s.doc).1
          batches := s.batches ++ [c]
          startIndex := none } := by
  obtain ⟨hnd, hfree⟩ := batch_free h.complete hc
  have happ : c.append = true := hc.1
  have hins : (c.upsert s.doc).chunks.inserted c.chunkValues = c.chunks.length := by
    rw [UniqueTable.inserted_of_free hnd hfree, c.length_chunkValues]
  -- rows are inserted, so the text and the size of the batch are added
  have hne : (c.upsert s.doc).chunks.inserted c.chunkValues ≠ 0 := by
    rw [hins]
    exact fun h0 => hc.2.1 (List.length_eq_zero_iff.mp h0)
  have hrows : chunkRows (some (c.writeChunks s.doc.isNone (c.upsert s.doc))) =
      chunkRows s.doc ++ c.chunkValues := by
    rw [chunkRows_some, c.writeChunks_chunks_of_append _ _ happ,
      UniqueTable.rows_insertAll_of_free hnd hfree, c.upsert_chunks]
  have hcnt := c.counters_append s.doc happ hne
  rw [storeProcessedDocument_of_isActiveRun c s.doc hfence]
  refine ⟨⟨?_, ?_, ?_, ?_, ?_⟩, ?_, fun _ => Option.some_ne_none _⟩
  · simp only [hrows, h.complete.rows_eq, List.flatMap_append, List.flatMap_singleton]
  · have hidx : c.chunkValues.map ChunkRow.chunkIndex =
        List.range' (chunkRows s.doc).length c.chunks.length := by
      rw [c.chunkValues_chunkIndex, hc.2.2]
    simp only [hrows, List.map_append, h.complete.index_eq, hidx, List.length_append,
      c.length_chunkValues, List.range_eq_range']
    have happend := @List.range'_append_1 0 (chunkRows s.doc).length c.chunks.length
    rwa [Nat.zero_add] at happend
  · simp only [hcnt, hins, hrows, List.length_append, c.length_chunkValues,
      h.complete.chunkCount_eq]
  · simp only [hcnt, h.complete.textLength_eq, List.map_append, List.sum_append,
      List.map_singleton, List.sum_singleton]
  · simp only [hcnt, h.complete.sizeBytes_eq, List.map_append, List.sum_append,
      List.map_singleton, List.sum_singleton]
  · intro start hst
    cases hst

/-- A replay finds all its indices taken, so it changes neither rows nor counters. -/
private theorem inv_replay {s : AppendLedger} {c : StoreCall} {now : Timestamp} (h : s.Inv)
    (happ : ∀ b ∈ s.batches, b.append = true) (hc : c ∈ s.batches)
    (hfence : isActiveRun c.workflowRunId s.doc) :
    Inv { s with doc := (storeProcessedDocument (c.replayedAt now) s.doc).1 } := by
  obtain ⟨d, hd⟩ := Option.ne_none_iff_exists'.mp (h.exists_of_batch (List.ne_nil_of_mem hc))
  have hrow : ∀ r ∈ c.chunkValues, r ∈ d.chunks.rows := by
    intro r hr
    have : r ∈ chunkRows s.doc := h.complete.rows_eq ▸ List.mem_flatMap_of_mem hc hr
    rwa [hd] at this
  have htaken : ∀ r ∈ (c.replayedAt now).chunkValues, d.chunks.Holds (ChunkRow.chunkIndex r) := by
    intro r hr
    obtain ⟨k, hk, rfl⟩ := List.mem_map.mp hr
    exact UniqueTable.holds_iff.mpr ⟨c.chunkRow k, hrow _ (List.mem_map_of_mem hk), rfl⟩
  have hap : (c.replayedAt now).append = true := happ c hc
  -- no row is inserted, so the text and the size are not added again
  have hins := UniqueTable.inserted_of_taken htaken
  have hcnt := (c.replayedAt now).counters_append_replay d hap hins
  have hrows : chunkRows (some ((c.replayedAt now).writeChunks false
      ((c.replayedAt now).upsert (some d)))) = chunkRows (some d) := by
    rw [chunkRows_some, StoreCall.writeChunks_chunks_of_append _ _ _ hap]
    exact congrArg UniqueTable.rows (UniqueTable.insertAll_of_taken htaken)
  have hstore : (storeProcessedDocument (c.replayedAt now) s.doc).1 =
      some ((c.replayedAt now).writeChunks false ((c.replayedAt now).upsert (some d))) := by
    rw [storeProcessedDocument_of_isActiveRun (c.replayedAt now) _ hfence, hd]
    rfl
  have hcomplete := h.complete
  have hstart := h.start_eq
  rw [hstore]
  rw [hd] at hstart
  exact {
    complete := {
      rows_eq := by rw [hrows, ← hd]; exact hcomplete.rows_eq
      index_eq := by rw [hrows, ← hd]; exact hcomplete.index_eq
      chunkCount_eq := by rw [hrows, hcnt, ← hd]; exact hcomplete.chunkCount_eq
      textLength_eq := by rw [hcnt, ← hd]; exact hcomplete.textLength_eq
      sizeBytes_eq := by rw [hcnt, ← hd]; exact hcomplete.sizeBytes_eq }
    start_eq := by rw [hrows]; exact hstart
    exists_of_batch := fun _ => Option.some_ne_none _ }

private theorem inv_step (s : AppendLedger) (e : AppendStep) (s' : AppendLedger)
    (h : s.Inv ∧ ∀ b ∈ s.batches, b.append = true) (hstep : s.step e = some s') :
    s'.Inv ∧ ∀ b ∈ s'.batches, b.append = true := by
  obtain ⟨hinv, happ⟩ := h
  cases e with
  | readChunkCount =>
    simp only [step, Option.some.injEq] at hstep
    subst hstep
    refine ⟨⟨⟨hinv.complete.rows_eq, hinv.complete.index_eq, hinv.complete.chunkCount_eq,
      hinv.complete.textLength_eq, hinv.complete.sizeBytes_eq⟩, ?_, hinv.exists_of_batch⟩, happ⟩
    intro start hst
    obtain rfl : getDocumentChunkCount s.doc = start := by simpa using hst
    rw [getDocumentChunkCount_eq, hinv.complete.chunkCount_eq]
  | storeBatch c =>
    simp only [step] at hstep
    split at hstep
    · cases hstep
    · rename_i start hst
      split at hstep
      · rename_i hc
        obtain rfl := Option.some.inj hstep
        -- the batch starts where the rows end, by the count that was read
        have hlen := hinv.start_eq start hst
        refine ⟨inv_storeBatch hinv (hlen ▸ hc.1) hc.2, fun b hb => ?_⟩
        cases List.mem_append.mp hb with
        | inl hb => exact happ b hb
        | inr hb => exact List.mem_singleton.mp hb ▸ hc.1.1
      · cases hstep
  | replay i now =>
    simp only [step] at hstep
    split at hstep
    · cases hstep
    · rename_i c hi
      split at hstep
      · rename_i hfence
        obtain rfl := Option.some.inj hstep
        exact ⟨inv_replay hinv happ (List.mem_of_getElem? hi) hfence, happ⟩
      · cases hstep

private theorem inv_init : Inv {} ∧ ∀ b ∈ ({} : AppendLedger).batches, b.append = true := by
  refine ⟨⟨⟨rfl, rfl, rfl, rfl, rfl⟩, ?_, fun h => absurd rfl h⟩, ?_⟩
  · intro start hst
    exact nomatch hst
  · intro b hb
    exact nomatch hb

/-! ## Every run -/

/-- The batch with the texts from the index, as a flush of run `run` stores it. -/
def sampleBatch (startIndex : Nat) (texts : List String) : StoreCall where
  now := 10 + startIndex
  message := {
    documentId := "doc"
    workspaceId := "ws"
    userId := "user"
    filename := "conversation"
    originalFilename := "conversation"
    contentType := "text/plain"
    sizeBytes := (texts.map String.length).sum
    storageBackend := "local"
    storagePath := ""
    timestamp := "" }
  chunks := texts.mapIdx fun i text =>
    { documentId := "doc", content := text, chunkIndex := startIndex + i, startChar := 0,
      endChar := text.length, tokenCount := some (estimateTokens text), metadata := none }
  textLength := (texts.map String.length).sum
  processingTimeMs := 0
  workflowRunId := "run"
  append := true

/-- Two flushes, the first one replayed before and after the second. -/
def sampleRun : List AppendStep :=
  [.readChunkCount, .storeBatch (sampleBatch 0 ["hello", "there"]), .replay 0 20,
    .readChunkCount, .storeBatch (sampleBatch 2 ["again"]), .replay 0 30, .replay 1 31]

end AppendLedger

end Inherent
