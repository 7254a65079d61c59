import Inherent.ForStd.Run
import Inherent.Native.Document

/-!
# Chunk reuse detection

`src/services/inh-ingestion-svc/src/services/reuse_detection.py`, with what it calls of
`DatabaseService` and `WeaviateService`, for one workspace.  A document that is ingested is
compared with the chunks of the other documents of its user's tenant; each match is an event
in the ledger `chunk_reuse_events` and a count on the matched chunk, in `document_chunks` and
again on the chunk's object.  `near_object` and `difflib` stand outside the model: the
services are parameters of the detection.
-/

namespace Inherent

/-- A chunk: `document_id` and `chunk_index`. -/
structure ChunkKey where
  documentId : String
  chunkIndex : Nat
  deriving DecidableEq, Repr

/-- A row of `document_chunks`: its key and the columns of the reuse detection. -/
structure ReuseRow where
  id : Nat
  key : ChunkKey
  reuseCount : Nat
  deriving DecidableEq, Repr

/-- A row of `chunk_reuse_events`: the columns of its unique index
    `uq_chunk_reuse_dedupe`. -/
structure ChunkReuseEvent where
  sourceChunkId : Nat
  reusingDocumentId : String
  reusingChunkContentHash : Sha256
  deriving DecidableEq, Repr

/-- The object of a chunk in its user's tenant. -/
structure ReuseObject where
  userId : String
  key : ChunkKey
  content : String
  reuseCount : Nat
  deriving DecidableEq, Repr

/-- What `chunk_object_uuid` is computed from. -/
def ReuseObject.slot (o : ReuseObject) : String × ChunkKey := (o.userId, o.key)

/-- The tables and the objects of the workspace.  An id is given once (`autoincrement`), and
    an event references the row of its source chunk. -/
structure ReuseStores where
  chunks : UniqueTable ReuseRow.key
  nextId : Nat
  events : UniqueTable (id : ChunkReuseEvent → ChunkReuseEvent)
  objects : UniqueTable ReuseObject.slot
  ids : ∀ c ∈ chunks.rows, ∀ c' ∈ chunks.rows, c.id = c'.id → c = c'
  fresh : ∀ c ∈ chunks.rows, c.id < nextId
  referenced : ∀ e ∈ events.rows, ∃ c ∈ chunks.rows, c.id = e.sourceChunkId

/-- A chunk of the document that is ingested. -/
structure ReusingChunk where
  chunkIndex : Nat
  content : String
  deriving DecidableEq, Repr

/-- What `find_similar_chunks` returns of an object. -/
structure ReuseCandidate where
  key : ChunkKey
  content : String
  deriving DecidableEq, Repr

/-- The settings of the detection, and the two services that are not code of this
    repository. -/
structure ReuseServices where
  /-- `REUSE_MIN_CHUNK_CHARS`. -/
  minChunkChars : Int
  /-- `REUSE_TEXT_SIMILARITY_THRESHOLD`. -/
  textSimilarityThreshold : Rat
  /-- `difflib.SequenceMatcher(None, content, candidate_content).ratio()`. -/
  ratio : String → String → Rat
  /-- `near_object` with its certainty and its limit, among the objects that the filter
      leaves. -/
  nearObject : String → List ReuseCandidate → List ReuseCandidate

/-- How a call ends: it returns, its service is not connected, or it raises. -/
inductive ReuseOutcome where
  | returned
  | disconnected
  | raised
  deriving DecidableEq, Repr

namespace ReuseStores

/-- The workspace before anything is ingested. -/
def empty : ReuseStores where
  chunks := .empty
  nextId := 1
  events := .empty
  objects := .empty
  ids := by simp
  fresh := by simp
  referenced := by simp

/-- The index that the next chunk of the document gets. -/
def nextIndex (s : ReuseStores) (documentId : String) : Nat :=
  s.chunks.rows.foldr (fun c n => if c.key.documentId = documentId then max (c.key.chunkIndex + 1) n
    else n) 0

/-! ## `DatabaseService` -/

/-- The rows that an insert brings, with the ids that the sequence gives. -/
def newRows (s : ReuseStores) (documentId : String) (indices : List Nat) : List ReuseRow :=
  indices.zipIdx.map fun p => { id := s.nextId + p.2, key := ⟨documentId, p.1⟩, reuseCount := 0 }

/-- The delete of `store_processed_document`: the document's chunk rows, and with them
    (`ON DELETE CASCADE`) their events. -/
def deleteRows (s : ReuseStores) (documentId : String) : ReuseStores :=
  { s with
    chunks := s.chunks.filter fun c => c.key.documentId ≠ documentId
    events := s.events.filter fun e =>
      ∃ c ∈ s.chunks.rows, c.id = e.sourceChunkId ∧ c.key.documentId ≠ documentId
    ids := fun c hc c' hc' =>
      s.ids c (UniqueTable.mem_filter.mp hc).1 c' (UniqueTable.mem_filter.mp hc').1
    fresh := fun c hc => s.fresh c (UniqueTable.mem_filter.mp hc).1
    referenced := by
      intro e he
      obtain ⟨c, hc, hid, hkey⟩ := of_decide_eq_true (UniqueTable.mem_filter.mp he).2
      exact ⟨c, UniqueTable.mem_filter.mpr ⟨hc, decide_eq_true hkey⟩, hid⟩ }

/-- A row that an insert brings has an id that was not given before. -/
theorem id_of_mem_newRows {s : ReuseStores} {documentId : String} {indices : List Nat}
    {c : ReuseRow} (h : c ∈ s.newRows documentId indices) :
    s.nextId ≤ c.id ∧ c.id < s.nextId + indices.length ∧ indices[c.id - s.nextId]? =
      some c.key.chunkIndex ∧ c.key.documentId = documentId ∧ c.reuseCount = 0 := by
  obtain ⟨⟨i, n⟩, hmem, rfl⟩ := List.mem_map.mp h
  obtain ⟨-, hlt, hget⟩ := List.mem_zipIdx hmem
  refine ⟨by simp, by simpa using hlt, ?_, rfl, rfl⟩
  simp only [Nat.add_sub_cancel_left]
  rw [hget]
  exact List.getElem?_eq_getElem _

/-- The insert of `store_processed_document`: `ON CONFLICT DO NOTHING` on the index. -/
def insertRows (s : ReuseStores) (documentId : String) (indices : List Nat) : ReuseStores :=
  { s with
    chunks := s.chunks.insertAll (s.newRows documentId indices)
    nextId := s.nextId + indices.length
    ids := by
      intro c hc c' hc' hid
      rcases UniqueTable.mem_of_mem_insertAll hc with h | h <;>
        rcases UniqueTable.mem_of_mem_insertAll hc' with h' | h'
      · exact s.ids c h c' h' hid
      · have := s.fresh c h
        have := (id_of_mem_newRows h').1
        omega
      · have := s.fresh c' h'
        have := (id_of_mem_newRows h).1
        omega
      · -- the position of a new row is its id, so both have the same index
        obtain ⟨-, -, hget, hdoc, -⟩ := id_of_mem_newRows h
        obtain ⟨-, -, hget', hdoc', -⟩ := id_of_mem_newRows h'
        rw [hid, hget'] at hget
        have hkey : c.key = c'.key := by
          rw [ChunkKey.mk.injEq]
          exact ⟨hdoc.trans hdoc'.symm, (Option.some.inj hget).symm⟩
        exact UniqueTable.eq_of_key_eq hc hc' hkey
    fresh := by
      intro c hc
      rcases UniqueTable.mem_of_mem_insertAll hc with h | h
      · exact (s.fresh c h).trans_le (Nat.le_add_right _ _)
      · exact (id_of_mem_newRows h).2.1
    referenced := by
      intro e he
      obtain ⟨c, hc, hid⟩ := s.referenced e he
      exact ⟨c, UniqueTable.mem_insertAll_of_mem _ hc, hid⟩ }

/-- The chunk rows after `store_processed_document`; with `append` nothing is deleted. -/
def storeRows (s : ReuseStores) (documentId : String) (append : Bool) (indices : List Nat) :
    ReuseStores :=
  (if append then s else s.deleteRows documentId).insertRows documentId indices

/-- `get_chunk_for_reuse`. -/
def getChunkForReuse (s : ReuseStores) (key : ChunkKey) : Option ReuseRow := s.chunks.find? key

/-- The row after `reuse_count = reuse_count + 1`, when it has the id. -/
def bump (sourceChunkId : Nat) (c : ReuseRow) : ReuseRow :=
  if c.id = sourceChunkId then { c with reuseCount := c.reuseCount + 1 } else c

theorem key_bump (sourceChunkId : Nat) (c : ReuseRow) :
    (bump sourceChunkId c).key = c.key ∧ (bump sourceChunkId c).id = c.id := by
  unfold bump
  split <;> exact ⟨rfl, rfl⟩

/-- The row with the id, if there is one. -/
def rowWithId (s : ReuseStores) (sourceChunkId : Nat) : Option ReuseRow :=
  s.chunks.rows.find? fun c => c.id = sourceChunkId

theorem rowWithId_eq_some {s : ReuseStores} {sourceChunkId : Nat} {c : ReuseRow} :
    s.rowWithId sourceChunkId = some c ↔ c ∈ s.chunks.rows ∧ c.id = sourceChunkId := by
  unfold rowWithId
  constructor
  · intro h
    have hid := List.find?_some h
    exact ⟨List.mem_of_find?_eq_some h, of_decide_eq_true hid⟩
  · intro ⟨hc, hid⟩
    cases hfind : s.chunks.rows.find? fun c => c.id = sourceChunkId with
    | none =>
      have := List.find?_eq_none.mp hfind c hc
      exact absurd (decide_eq_true hid) this
    | some c' =>
      have hid' := List.find?_some hfind
      -- the table has one row with the id
      rw [s.ids c' (List.mem_of_find?_eq_some hfind) c hc
        ((of_decide_eq_true hid').trans hid.symm)]

/-- The event in the ledger and the count on its row. -/
def addEvent (s : ReuseStores) (e : ChunkReuseEvent)
    (h : ∃ c ∈ s.chunks.rows, c.id = e.sourceChunkId) : ReuseStores :=
  { s with
    chunks := s.chunks.update (bump e.sourceChunkId) fun c => (key_bump _ c).1
    events := s.events.insertNew e
    ids := by
      intro c hc c' hc' hid
      obtain ⟨d, hd, rfl⟩ := List.mem_map.mp hc
      obtain ⟨d', hd', rfl⟩ := List.mem_map.mp hc'
      rw [(key_bump _ d).2, (key_bump _ d').2] at hid
      rw [s.ids d hd d' hd' hid]
    fresh := by
      intro c hc
      obtain ⟨d, hd, rfl⟩ := List.mem_map.mp hc
      rw [(key_bump _ d).2]
      exact s.fresh d hd
    referenced := by
      intro e' he'
      have hrow : ∃ c ∈ s.chunks.rows, c.id = e'.sourceChunkId := by
        rcases UniqueTable.mem_of_mem_insertNew he' with he' | rfl
        · exact s.referenced e' he'
        · exact h
      obtain ⟨c, hc, hid⟩ := hrow
      exact ⟨bump _ c, List.mem_map_of_mem hc, (key_bump _ c).2.trans hid⟩ }

/-- `record_chunk_reuse`: `none` when the reference to the source chunk fails, else the new
    count, or `none` for an event that the ledger has. -/
def recordChunkReuse (s : ReuseStores) (e : ChunkReuseEvent) : Option (ReuseStores × Option Nat) :=
  if s.events.Holds e then some (s, none)
  else
    match h : s.rowWithId e.sourceChunkId with
    | none => none
    | some c => some (s.addEvent e ⟨c, rowWithId_eq_some.mp h⟩, some (c.reuseCount + 1))

/-- The three ends of `record_chunk_reuse`. -/
theorem recordChunkReuse_cases (s : ReuseStores) (e : ChunkReuseEvent) :
    (s.events.Holds e ∧ s.recordChunkReuse e = some (s, none)) ∨
      (s.rowWithId e.sourceChunkId = none ∧ s.recordChunkReuse e = none) ∨
      ∃ c hrow, s.rowWithId e.sourceChunkId = some c ∧ ¬ s.events.Holds e ∧
        s.recordChunkReuse e = some (s.addEvent e hrow, some (c.reuseCount + 1)) := by
  unfold recordChunkReuse
  split
  · next hholds => exact Or.inl ⟨hholds, rfl⟩
  · next hholds =>
    split
    · next hnone => exact Or.inr (Or.inl ⟨hnone, rfl⟩)
    · next c hc => exact Or.inr (Or.inr ⟨c, ⟨c, rowWithId_eq_some.mp hc⟩, hc, hholds, rfl⟩)

/-! ## `WeaviateService` -/

/-- `delete_document_chunks_graceful`. -/
def deleteObjects (s : ReuseStores) (userId documentId : String) : ReuseStores :=
  { s with objects := s.objects.filter fun o =>
      ¬ (o.userId = userId ∧ o.key.documentId = documentId) }

/-- The objects of the chunks, each with a count of 0. -/
def newObjects (userId documentId : String) (chunks : List ReusingChunk) : List ReuseObject :=
  chunks.map fun chunk =>
    { userId, key := ⟨documentId, chunk.chunkIndex⟩, content := chunk.content, reuseCount := 0 }

/-- The batch write of `store_chunks_with_tenant`. -/
def storeObjects (s : ReuseStores) (objects : List ReuseObject) : ReuseStores :=
  { s with objects := s.objects.putAll objects }

/-- What `near_object` may return for a chunk of the document: the other documents' objects
    of the tenant. -/
def otherDocuments (s : ReuseStores) (userId documentId : String) : List ReuseCandidate :=
  (s.objects.rows.filter fun o => o.userId = userId ∧ o.key.documentId ≠ documentId).map
    fun o => ⟨o.key, o.content⟩

/-- `set_chunk_reuse_count`: it raises when there is no such object. -/
def setChunkReuseCount (s : ReuseStores) (userId : String) (key : ChunkKey) (reuseCount : Nat) :
    Option ReuseStores :=
  let patch := fun o : ReuseObject => if o.slot = (userId, key) then { o with reuseCount } else o
  if s.objects.Holds (userId, key) then
    some { s with objects := s.objects.update patch fun o => by simp only [patch]; split <;> rfl }
  else none

end ReuseStores

/-- The checks of `_confirm_and_record` on a candidate: another document, and a text like
    the chunk's. -/
def ReuseServices.Confirms (w : ReuseServices) (documentId content : String)
    (candidate : ReuseCandidate) : Prop :=
  candidate.key.documentId ≠ "" ∧ candidate.key.documentId ≠ documentId ∧
    (0 < w.textSimilarityThreshold → w.textSimilarityThreshold ≤ w.ratio content candidate.content)

instance (w : ReuseServices) (documentId content : String) (candidate : ReuseCandidate) :
    Decidable (w.Confirms documentId content candidate) :=
  inferInstanceAs (Decidable (_ ∧ _ ∧ _))

/-- The chunk is long enough to be looked up. -/
def ReuseServices.LongEnough (w : ReuseServices) (chunk : ReusingChunk) : Prop :=
  w.minChunkChars ≤ (PyStr.strip chunk.content.toList).length

instance (w : ReuseServices) (chunk : ReusingChunk) : Decidable (w.LongEnough chunk) :=
  inferInstanceAs (Decidable (_ ≤ _))

/-! ## The detection of one ingest -/

/-- A call of the detection to one of its services. -/
inductive ReuseCall where
  | deleteDocumentChunks
  | findSimilarChunks (chunkIndex : Nat)
  | getChunkForReuse (chunkIndex : Nat) (candidate : ChunkKey)
  | recordChunkReuse (chunkIndex : Nat) (candidate : ChunkKey)
  | setChunkReuseCount (chunkIndex : Nat) (candidate : ChunkKey)
  deriving DecidableEq, Repr

/-- A document that is ingested, and how the calls of its detection end. -/
structure Ingest where
  userId : String
  documentId : String
  append : Bool := false
  contents : List String
  calls : ReuseCall → ReuseOutcome := fun _ => .returned

/-- The chunks of the document; with `append` they go on behind its chunks. -/
def Ingest.chunks (i : Ingest) (s : ReuseStores) : List ReusingChunk :=
  (i.contents.zipIdx (if i.append then s.nextIndex i.documentId else 0)).map fun p => ⟨p.2, p.1⟩

namespace ReuseServices

/-- The loop body of `_confirm_and_record`. -/
def recordCandidate (w : ReuseServices) (i : Ingest) (chunk : ReusingChunk) (s : ReuseStores)
    (candidate : ReuseCandidate) : ReuseStores × Nat :=
  if ¬ w.Confirms i.documentId chunk.content candidate then (s, 0)
  else if i.calls (.getChunkForReuse chunk.chunkIndex candidate.key) ≠ .returned then (s, 0)
  else match s.getChunkForReuse candidate.key with
    | none => (s, 0)
    | some source =>
      if i.calls (.recordChunkReuse chunk.chunkIndex candidate.key) ≠ .returned then (s, 0)
      else match s.recordChunkReuse ⟨source.id, i.documentId, ⟨chunk.content⟩⟩ with
        | none => (s, 0)
        | some (s', none) => (s', 0)
        | some (s', some newCount) =>
          match i.calls (.setChunkReuseCount chunk.chunkIndex candidate.key) with
          | .raised => (s', 0)
          -- without a client the method returns before it writes
          | .disconnected => (s', 1)
          | .returned =>
            match s'.setChunkReuseCount i.userId candidate.key newCount with
            | none => (s', 0)
            | some s'' => (s'', 1)

/-- `_confirm_and_record`: the stores, and how many events were recorded. -/
def confirmAndRecord (w : ReuseServices) (i : Ingest) (chunk : ReusingChunk) :
    List ReuseCandidate → ReuseStores → ReuseStores × Nat
  | [], s => (s, 0)
  | candidate :: candidates, s =>
    let first := w.recordCandidate i chunk s candidate
    let rest := w.confirmAndRecord i chunk candidates first.1
    (rest.1, first.2 + rest.2)

/-- `detect_and_record_chunk_reuse`. -/
def detectAndRecordChunkReuse (w : ReuseServices) (i : Ingest) :
    List ReusingChunk → ReuseStores → ReuseStores × Nat
  | [], s => (s, 0)
  | chunk :: chunks, s =>
    if w.LongEnough chunk ∧ i.calls (.findSimilarChunks chunk.chunkIndex) = .returned then
      let candidates := w.nearObject chunk.content (s.otherDocuments i.userId i.documentId)
      let first := w.confirmAndRecord i chunk candidates s
      let rest := w.detectAndRecordChunkReuse i chunks first.1
      (rest.1, first.2 + rest.2)
    else w.detectAndRecordChunkReuse i chunks s

/-- An ingest of a document: its rows, its objects, and then the detection. -/
def ingest (w : ReuseServices) (s : ReuseStores) (i : Ingest) : ReuseStores :=
  let chunks := i.chunks s
  let stored := s.storeRows i.documentId i.append (chunks.map ReusingChunk.chunkIndex)
  let deleted :=
    if i.append ∨ i.calls .deleteDocumentChunks ≠ .returned then stored
    else stored.deleteObjects i.userId i.documentId
  let written := deleted.storeObjects (ReuseStores.newObjects i.userId i.documentId chunks)
  (w.detectAndRecordChunkReuse i chunks written).1

/-- The workspace after its ingests, in order. -/
def run (w : ReuseServices) (history : List Ingest) : ReuseStores :=
  history.foldl w.ingest .empty

end ReuseServices

end Inherent
