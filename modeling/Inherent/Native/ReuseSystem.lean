import Inherent.Native.ReuseDetection

/-!
# Ingests with reuse detection beside each other

The ingests of a workspace as one event system.  An ingest stores its rows
(`store_in_postgresql`), then its objects, and then detects reuse (`store_in_weaviate`), one
call at a time; between any two of its calls the others go on.  An activity whose attempt
raises is attempted again, and an attempt that was given up may still go on beside it.
-/

namespace Inherent

/-- How far an ingest is. -/
inductive ReusePhase where
  /-- It has claimed its document. -/
  | claimed
  /-- Its rows are stored, and `store_in_weaviate` is to start or to start again. -/
  | stored
  /-- It is past `is_active_run`. -/
  | permitted
  /-- It is past its delete. -/
  | deleted
  /-- The detection, with the chunks that are left to look up. -/
  | scanning (rest : List ReusingChunk)
  /-- It has found the candidates of a chunk. -/
  | confirming (chunk : ReusingChunk) (candidates : List ReuseCandidate)
      (rest : List ReusingChunk)
  /-- It has the row of a candidate. -/
  | recording (sourceChunkId : Nat) (chunk : ReusingChunk) (candidate : ReuseCandidate)
      (candidates : List ReuseCandidate) (rest : List ReusingChunk)
  /-- It has counted the reuse, and is to write the count on the candidate's object. -/
  | mirroring (newCount : Nat) (chunk : ReusingChunk) (candidate : ReuseCandidate)
      (candidates : List ReuseCandidate) (rest : List ReusingChunk)
  | ended
  deriving DecidableEq, Repr

/-- An ingest of a document. -/
structure ReuseIngest where
  userId : String
  documentId : String
  append : Bool := false
  chunks : List ReusingChunk
  phase : ReusePhase := .claimed
  deriving DecidableEq, Repr

/-- What an ingest does next. -/
inductive ReuseAction where
  /-- `store_processed_document`, which a newer run may have fenced out. -/
  | storeRows (active : Bool)
  /-- `is_active_run`. -/
  | checkFence (active : Bool)
  /-- `delete_document_chunks_graceful`: the indices whose objects it takes. -/
  | deleteObjects (indices : List Nat)
  /-- `store_chunks_with_tenant`: which objects Weaviate takes, and whether an error other
      than theirs is raised. -/
  | writeObjects (landed : List Bool) (error : Bool)
  /-- `find_similar_chunks` for the next chunk, or no answer. -/
  | search (response : Option (List ReuseCandidate))
  /-- The checks on the next candidate, and `get_chunk_for_reuse`. -/
  | confirm (outcome : ReuseOutcome)
  /-- `record_chunk_reuse`. -/
  | record (outcome : ReuseOutcome)
  /-- `set_chunk_reuse_count`. -/
  | mirror (outcome : ReuseOutcome)
  /-- It dies, or has had its last attempt. -/
  | stop
  deriving DecidableEq, Repr

/-- What can happen; `k` is the number of an ingest. -/
inductive ReuseSystemEvent where
  | start (userId documentId : String) (append : Bool) (chunks : List ReusingChunk)
  /-- Another attempt of an activity of the ingest, `store_in_postgresql` or
      `store_in_weaviate`. -/
  | again (k : Nat) (rows : Bool)
  | act (k : Nat) (action : ReuseAction)
  deriving DecidableEq, Repr

namespace ReuseIngest

/-- The indices of the chunks. -/
def indices (i : ReuseIngest) : List Nat := i.chunks.map ReusingChunk.chunkIndex

/-- The objects that Weaviate takes of the batch. -/
def landedObjects (i : ReuseIngest) (landed : List Bool) : List ReuseObject :=
  ((ReuseStores.newObjects i.userId i.documentId i.chunks).zip landed).filterMap fun p =>
    if p.2 then some p.1 else none

/-- The stores and the phase after an action, or `none` when it is not the next one. -/
def act (w : ReuseServices) (i : ReuseIngest) (s : ReuseStores) (action : ReuseAction) :
    Option (ReuseStores × ReusePhase) :=
  match action, i.phase with
  | .storeRows active, .claimed =>
    if active then some (s.storeRows i.documentId i.append i.indices, .stored)
    else some (s, .ended)
  | .checkFence active, .stored => some (s, if active then .permitted else .ended)
  | .deleteObjects indices, .permitted =>
    if i.append then none
    else some ({ s with objects := s.objects.filter fun o =>
      ¬ (o.userId = i.userId ∧ o.key.documentId = i.documentId ∧ o.key.chunkIndex ∈ indices) },
      .deleted)
  | .writeObjects landed error, phase =>
    if phase = if i.append then .permitted else .deleted then
      let written := i.landedObjects landed
      some (s.storeObjects written,
        -- an attempt that raises is made again
        if written.length = i.chunks.length ∧ error = false then .scanning i.chunks else .stored)
    else none
  | .search response, .scanning (chunk :: rest) =>
    if ¬ w.LongEnough chunk then some (s, .scanning rest)
    else match response with
      | none => some (s, .scanning rest)
      | some candidates =>
        if ∀ c ∈ candidates, c ∈ s.otherDocuments i.userId i.documentId then
          some (s, .confirming chunk candidates rest)
        else none
  | .search _, .scanning [] => some (s, .ended)
  | .confirm outcome, .confirming chunk (candidate :: candidates) rest =>
    if w.Confirms i.documentId chunk.content candidate ∧ outcome = .returned then
      match s.getChunkForReuse candidate.key with
      | none => some (s, .confirming chunk candidates rest)
      | some source => some (s, .recording source.id chunk candidate candidates rest)
    else some (s, .confirming chunk candidates rest)
  | .confirm _, .confirming _ [] rest => some (s, .scanning rest)
  | .record outcome, .recording sourceChunkId chunk candidate candidates rest =>
    if outcome = .returned then
      match s.recordChunkReuse ⟨sourceChunkId, i.documentId, ⟨chunk.content⟩⟩ with
      | none => some (s, .confirming chunk candidates rest)
      | some (s', none) => some (s', .confirming chunk candidates rest)
      | some (s', some newCount) => some (s', .mirroring newCount chunk candidate candidates rest)
    else some (s, .confirming chunk candidates rest)
  | .mirror outcome, .mirroring newCount chunk candidate candidates rest =>
    if outcome = .returned then
      match s.setChunkReuseCount i.userId candidate.key newCount with
      | none => some (s, .confirming chunk candidates rest)
      | some s' => some (s', .confirming chunk candidates rest)
    else some (s, .confirming chunk candidates rest)
  | .stop, phase => if phase = .ended then none else some (s, .ended)
  | _, _ => none

/-- An ingest stores its rows right behind its claim, unless it has been fenced out. -/
theorem act_storeRows {w : ReuseServices} {i : ReuseIngest} {s s' : ReuseStores}
    {phase : ReusePhase} {active : Bool} (h : i.act w s (.storeRows active) = some (s', phase)) :
    i.phase = .claimed ∧
      if active then s' = s.storeRows i.documentId i.append i.indices ∧ phase = .stored
      else s' = s ∧ phase = .ended := by
  cases hp : i.phase <;> simp only [ReuseIngest.act, hp, reduceCtorEq] at h
  cases active <;> simp_all

end ReuseIngest

/-- The stores and the ingests, first started first. -/
structure ReuseSystem where
  stores : ReuseStores
  ingests : List ReuseIngest

namespace ReuseSystem

/-- One event. -/
def step (w : ReuseServices) (s : ReuseSystem) : ReuseSystemEvent → Option ReuseSystem
  | .start userId documentId append chunks =>
    some { s with ingests := s.ingests ++ [{ userId, documentId, append, chunks }] }
  | .again k rows => do
    let i ← s.ingests[k]?
    if rows then some { s with ingests := s.ingests ++ [{ i with phase := .claimed }] }
    else if i.phase = .claimed then none
    else some { s with ingests := s.ingests ++ [{ i with phase := .stored }] }
  | .act k action => do
    let i ← s.ingests[k]?
    let (stores, phase) ← i.act w s.stores action
    some { stores, ingests := s.ingests.set k { i with phase } }

/-- An empty workspace. -/
def initial : ReuseSystem := ⟨.empty, []⟩

/-- Every ingest has ended. -/
def AllEnded (s : ReuseSystem) : Prop := ∀ i ∈ s.ingests, i.phase = .ended

instance (s : ReuseSystem) : Decidable s.AllEnded :=
  inferInstanceAs (Decidable (∀ i ∈ s.ingests, _))

end ReuseSystem

end Inherent
