import Inherent.ForStd.StatefulProgram
import Inherent.Native.ReuseDetection

/-!
# The recording of chunk reuse

`record_chunk_reuse` of `src/services/inh-ingestion-svc/src/services/database.py` statement by
statement, with all columns that it writes.  `ReuseStores.recordChunkReuse` is what it does when
nothing fails (`Mirrors.recordChunkReuse`).
-/

namespace Inherent

open StatefulProgram (exec)

/-- A row of `chunk_reuse_events`, but for its id. -/
structure ReuseEventRow where
  /-- The columns of `uq_chunk_reuse_dedupe`. -/
  event : ChunkReuseEvent
  workspaceId : String
  similarity : Rat
  createdAt : Timestamp
  deriving DecidableEq, Repr

/-- A row of `document_chunks`: the columns that the recording reads and writes. -/
structure CountedChunk where
  id : Nat
  reuseCount : Nat := 0
  lastReusedAt : Option Timestamp := none
  deriving DecidableEq, Repr

/-- The two tables; an event references the row of its source chunk. -/
structure ReuseTables where
  chunks : UniqueTable CountedChunk.id
  events : UniqueTable ReuseEventRow.event
  referenced : ∀ e ∈ events.rows, chunks.Holds e.event.sourceChunkId

/-- The arguments of `record_chunk_reuse`. -/
structure ReuseRecording where
  event : ChunkReuseEvent
  workspaceId : String
  similarity : Rat
  deriving DecidableEq, Repr

/-- Why a call raises: it has no engine, a foreign key fails, or the connection does. -/
inductive RecordError where
  | notConnected
  | foreignKey
  | connection
  deriving DecidableEq, Repr

/-- How a commit ends: it is acknowledged, it fails, or it takes effect and the caller does not get
    to know. -/
inductive CommitEnd where
  | acknowledged
  | failed
  | unacknowledged
  deriving DecidableEq, Repr

/-- A call of `record_chunk_reuse`, with its clock and what fails of it. -/
structure RecordAttempt extends ReuseRecording where
  connected : Bool := true
  insertFails : Bool := false
  updateFails : Bool := false
  commit : CommitEnd := .acknowledged
  createdAt : Timestamp := 0
  now : Timestamp := 0
  deriving DecidableEq, Repr

/-- The row that the call inserts. -/
def RecordAttempt.row (a : RecordAttempt) : ReuseEventRow where
  event := a.event
  workspaceId := a.workspaceId
  similarity := a.similarity
  createdAt := a.createdAt

namespace ReuseTables

/-- The tables with one more event, on a chunk that there is. -/
def insertEvent (t : ReuseTables) (e : ReuseEventRow) (h : t.chunks.Holds e.event.sourceChunkId) :
    ReuseTables :=
  { t with
    events := t.events.insertNew e
    referenced := by
      intro e' he'
      rcases UniqueTable.mem_of_mem_insertNew he' with he' | rfl
      · exact t.referenced e' he'
      · exact h }

/-- The row after `reuse_count = reuse_count + 1`, when it has the id. -/
def incrementRow (sourceChunkId : Nat) (now : Timestamp) (c : CountedChunk) : CountedChunk :=
  if c.id = sourceChunkId then { c with reuseCount := c.reuseCount + 1, lastReusedAt := some now }
  else c

theorem id_incrementRow (sourceChunkId : Nat) (now : Timestamp) (c : CountedChunk) :
    (incrementRow sourceChunkId now c).id = c.id := by
  unfold incrementRow
  split
  · rfl
  · rfl

/-- The tables with the row of the chunk counted up. -/
def increment (t : ReuseTables) (sourceChunkId : Nat) (now : Timestamp) : ReuseTables :=
  { t with
    chunks := t.chunks.update (incrementRow sourceChunkId now) (id_incrementRow sourceChunkId now)
    referenced := by
      intro e he
      obtain ⟨c, hc, hid⟩ := UniqueTable.holds_iff.mp (t.referenced e he)
      exact UniqueTable.holds_iff.mpr
        ⟨incrementRow sourceChunkId now c, List.mem_map_of_mem hc,
          (id_incrementRow _ _ c).trans hid⟩ }

end ReuseTables

/-- What runs in a session. -/
abbrev Session := ExceptT RecordError (StateM ReuseTables)

/-- `pg_insert(...).on_conflict_do_nothing(...)`, with its `rowcount`. -/
def insertReuseEvent (e : ReuseEventRow) : Session Nat := do
  let t ← get
  if t.events.Holds e.event then return 0
  else if h : t.chunks.Holds e.event.sourceChunkId then
    set (t.insertEvent e h)
    return 1
  else throw .foreignKey

/-- `document_chunks.update().where(...).values(...).returning(...)`. -/
def incrementReuseCount (sourceChunkId : Nat) (now : Timestamp) : Session (Option Nat) := do
  modify fun t => t.increment sourceChunkId now
  let t ← get
  return (t.chunks.find? sourceChunkId).map CountedChunk.reuseCount

namespace RecordAttempt

/-- The body of `record_chunk_reuse` in its session. -/
def body (a : RecordAttempt) : Session (Option Nat) := do
  if a.insertFails then throw .connection
  let rowcount ← insertReuseEvent a.row
  if rowcount = 0 then return none
  if a.updateFails then throw .connection
  incrementReuseCount a.event.sourceChunkId a.now

/-- `get_session`: the transaction is committed if the body returns, and rolled back if it
    raises. -/
def getSession {α : Type} (body : Session α) (commit : CommitEnd) (t : ReuseTables) :
    Except RecordError α × ReuseTables :=
  match exec body t with
  | (.error e, _) => (.error e, t)
  | (.ok r, t') =>
    match commit with
    | .acknowledged => (.ok r, t')
    | .failed => (.error .connection, t)
    | .unacknowledged => (.error .connection, t')

/-- `record_chunk_reuse`: what it returns or raises, and the tables that it leaves. -/
def recordChunkReuse (a : RecordAttempt) (t : ReuseTables) :
    Except RecordError (Option Nat) × ReuseTables :=
  if a.connected then getSession a.body a.commit t else (.error .notConnected, t)

end RecordAttempt

/-- The tables after the calls, one after the other. -/
def ReuseTables.recordAll (t : ReuseTables) (history : List RecordAttempt) : ReuseTables :=
  history.foldl (fun t a => (a.recordChunkReuse t).2) t

end Inherent
