import Inherent.Native.ChunkWrites
import Inherent.Native.DocumentIntake

/-!
# Concurrent updates of a chunk

`update_chunk_everywhere` of the public API (`chunk_writes.py`), any number of calls for the
same chunk.  Each access to a store is a step of its own.  The request of a vector write may
be applied by the server as long as it has not been, whether or not the client still waits.
-/

namespace Inherent

/-- How far a call is. -/
inductive UpdatePhase where
  | started
  /-- It has read the chunk (`prior`). -/
  | read (prior : ChunkRecord)
  /-- It has updated the row, and its vector write is under way. -/
  | written (prior updated : ChunkRecord)
  /-- The vector write has failed, and this attempt to restore the row is next. -/
  | compensating (prior updated : ChunkRecord) (attempt : Nat)
  | returned (found : Bool)
  /-- It has raised; `exhausted` when no attempt to restore the row got through. -/
  | raised (exhausted : Bool)
  deriving DecidableEq

/-- The record whose content the call is about to restore. -/
def UpdatePhase.restores? : UpdatePhase → Option ChunkRecord
  | .compensating prior _ _ => some prior
  | _ => none

/-- The row that the call has written. -/
def UpdatePhase.updated? : UpdatePhase → Option ChunkRecord
  | .written _ updated => some updated
  | .compensating _ updated _ => some updated
  | _ => none

/-- The call has returned or raised. -/
def UpdatePhase.ended : UpdatePhase → Bool
  | .returned _ => true
  | .raised _ => true
  | _ => false

/-- A call of `update_chunk_everywhere`, with the request of its vector write while the
    server has not applied it. -/
structure UpdateCall where
  content : String
  phase : UpdatePhase := .started
  request : Option ChunkObject := none
  deriving DecidableEq

/-- A step of a call. -/
inductive UpdateStep where
  /-- `get_document_upload_fields` and `get_document_chunk_by_index`. -/
  | readPrior (found : Bool)
  /-- An access to the database before the vector write raises. -/
  | raise
  /-- `update_document_chunk`. -/
  | updateRow (now : Timestamp)
  /-- The server applies the vector write. -/
  | applyVector
  /-- `upsert_chunk_vector` returns or raises. -/
  | reply (ok : Bool)
  /-- An attempt of `restore_chunk_content_with_retry`. -/
  | restore (now : Timestamp) (outcome : WriteOutcome)
  deriving DecidableEq, Repr

/-- One step of a call on the two stores. -/
def UpdateCall.step (search : String → String → Bool) (c : UpdateCall) (stores : ChunkStores)
    (e : UpdateStep) : Option (UpdateCall × ChunkStores) :=
  match e, c.phase with
  | .readPrior found, .started =>
    match stores.row with
    | some prior =>
      some ({ c with phase := if found then .read prior else .returned false }, stores)
    | none => some ({ c with phase := .returned false }, stores)
  | .raise, .started => some ({ c with phase := .raised false }, stores)
  | .raise, .read _ => some ({ c with phase := .raised false }, stores)
  | .updateRow now, .read prior =>
    match updateDocumentChunk c.content now prior.contentHash stores.row with
    | (row, some updated) =>
      some
        ({ c with
            phase := .written prior updated
            request := some (upsertChunkVector search c.content updated.contentHash now) },
          { stores with row := row })
    | (_, none) => some ({ c with phase := .returned false }, stores)
  | .applyVector, _ =>
    match c.request, stores.object with
    | some o, some _ => some ({ c with request := none }, { stores with object := some o })
    | _, _ => none
  | .reply ok, .written prior updated =>
    if ok then
      -- success is reported for a write that was applied
      if c.request = none then some ({ c with phase := .returned true }, stores) else none
    else some ({ c with phase := .compensating prior updated 1 }, stores)
  | .restore now outcome, .compensating prior updated attempt =>
    let phase : UpdatePhase :=
      if outcome = .applied then .raised false
      else if attempt < markFailedAttempts then .compensating prior updated (attempt + 1)
      else .raised true
    let row := if outcome.lands then
        (updateDocumentChunk prior.content now updated.contentHash stores.row).1
      else stores.row
    some ({ c with phase := phase }, { stores with row := row })
  | _, _ => none

/-- The two stores and the calls. -/
structure ChunkUpdates where
  stores : ChunkStores
  calls : List UpdateCall := []
  deriving DecidableEq

/-- What can happen; `k` is the number of a call. -/
inductive UpdateEvent where
  | update (content : String)
  | call (k : Nat) (e : UpdateStep)
  deriving DecidableEq, Repr

namespace ChunkUpdates

/-- One event. -/
def step (search : String → String → Bool) (s : ChunkUpdates) :
    UpdateEvent → Option ChunkUpdates
  | .update content => some { s with calls := s.calls ++ [{ content := content }] }
  | .call k e =>
    match s.calls[k]? with
    | none => none
    | some c =>
      match c.step search s.stores e with
      | none => none
      | some (c', stores) => some { stores := stores, calls := s.calls.set k c' }

/-- A call has exhausted its compensation. -/
def Exhausted (s : ChunkUpdates) : Prop := ∃ c ∈ s.calls, c.phase = .raised true

instance (s : ChunkUpdates) : Decidable s.Exhausted :=
  inferInstanceAs (Decidable (∃ c ∈ s.calls, c.phase = .raised true))

/-- Every call has returned or raised. -/
def Done (s : ChunkUpdates) : Prop := ∀ c ∈ s.calls, c.phase.ended = true

instance (s : ChunkUpdates) : Decidable s.Done :=
  inferInstanceAs (Decidable (∀ c ∈ s.calls, c.phase.ended = true))

end ChunkUpdates

namespace ChunkStores

/-- The content of the row. -/
def rowContent (s : ChunkStores) : Option String := s.row.map ChunkRecord.content

/-- The content of the object. -/
def objectContent (s : ChunkStores) : Option String := s.object.map ChunkObject.content

/-- The content of the row is that of the object. -/
def Consistent (s : ChunkStores) : Prop := s.rowContent = s.objectContent

instance (s : ChunkStores) : Decidable s.Consistent :=
  inferInstanceAs (Decidable (s.rowContent = s.objectContent))

end ChunkStores

end Inherent
