import Inherent.ForStd.UniqueTable
import Inherent.Native.ConversationWorkflow

/-!
# The workspace counters

The row of a workspace in `workspace_metadata`, `update_workspace_stats` with its ledger, and
`ConversationMemoryWorkflow` together with the attempts of its `update_workspace_stats`
activity.
-/

namespace Inherent

/-- The counters of a workspace. -/
structure WorkspaceMetadata where
  documentCount : Nat := 0
  chunkCount : Nat := 0
  totalSizeBytes : Nat := 0
  deriving DecidableEq, Repr

/-- The row of the workspace in `workspace_metadata`, if there is one, and the keys of
    `workspace_stats_ledger`. -/
structure StatsTables where
  metadata : Option WorkspaceMetadata := some {}
  ledger : UniqueTable (id : RunId → RunId) := .empty

/-- `UpdateStatsInput` (`temporal/models.py`). -/
structure UpdateStatsInput where
  workspaceId : String
  documentDelta : Int := 0
  chunkDelta : Int := 0
  sizeDelta : Int := 0
  workflowRunId : Option RunId := none
  documentId : Option String := none
  deriving DecidableEq, Repr

/-- The `UPDATE` of `update_workspace_stats`: `GREATEST(0, count + delta)`. -/
def WorkspaceMetadata.add (m : WorkspaceMetadata) (input : UpdateStatsInput) :
    WorkspaceMetadata where
  documentCount := (m.documentCount + input.documentDelta).toNat
  chunkCount := (m.chunkCount + input.chunkDelta).toNat
  totalSizeBytes := (m.totalSizeBytes + input.sizeDelta).toNat

/-- `update_workspace_stats`: the tables after it, and whether the increment was applied. -/
def updateWorkspaceStats (input : UpdateStatsInput) (t : StatsTables) : StatsTables × Bool :=
  match input.workflowRunId with
  | none => ({ t with metadata := t.metadata.map (·.add input) }, t.metadata.isSome)
  | some workflowRunId =>
    if t.ledger.Holds workflowRunId then (t, false)
    else
      ({  metadata := t.metadata.map (·.add input)
          ledger := t.ledger.insertNew workflowRunId }, t.metadata.isSome)

/-- The `UPDATE` of `delete_document` of the public API, for a row with these counters. -/
def WorkspaceMetadata.removeDocument (m : WorkspaceMetadata) (chunkCount sizeBytes : Nat) :
    WorkspaceMetadata where
  -- `GREATEST(count - n, 0)` is the subtraction of `Nat`
  documentCount := m.documentCount - 1
  chunkCount := m.chunkCount - chunkCount
  totalSizeBytes := m.totalSizeBytes - sizeBytes

/-! ## The stats of a conversation run -/

/-- The input of `update_workspace_stats` for a flush of `chunk_output.chunk_count` chunks. -/
def ConversationRun.statsInput (s : ConversationRun) (flush : Flush) (chunkCount : Nat)
    (pg wv : StoreDocumentOutput) : UpdateStatsInput where
  workspaceId := s.self.workspaceId
  documentDelta := if pg.success && pg.documentRowInserted then 1 else 0
  chunkDelta := if pg.success || wv.success then chunkCount else 0
  sizeDelta := if pg.success then (max (flushTextLength flush.redacted) 1 : Nat) else 0
  workflowRunId := some s.workflowRunId
  documentId := some s.self.documentId

/-- The results of `asyncio.gather` once the result of one more store is in. -/
def gathered (pg wv : Option StoreDocumentOutput) (target : StoreTarget)
    (output : StoreDocumentOutput) : Option (StoreDocumentOutput × StoreDocumentOutput) := do
  let pg ← if target = .postgresql then some output else pg
  let wv ← if target = .weaviate then some output else wv
  return (pg, wv)

/-- An attempt of `update_workspace_stats`: the number of its call, and whether it is over. -/
structure StatsAttempt where
  call : Nat
  isOver : Bool := false
  deriving DecidableEq, Repr

/-- A run with its `chunk_output.chunk_count`, its calls of `update_workspace_stats` in order,
    their attempts, and the tables; further the number of the call that entered the run in the
    ledger, and the calls of the flushes that succeeded. -/
structure StatsSystem where
  run : ConversationRun
  chunkCount : Nat := 0
  calls : List UpdateStatsInput := []
  attempts : List StatsAttempt := []
  tables : StatsTables
  countedBy : Option Nat := none
  flushed : List UpdateStatsInput := []

/-- What can happen. -/
inductive StatsEvent where
  | workflow (e : WorkflowEvent)
  /-- An attempt of the call that the run waits for starts. -/
  | startAttempt
  /-- The transaction of the `k`-th attempt commits. -/
  | commit (k : Nat)
  /-- It raises; the exception is logged and the activity returns. -/
  | raise (k : Nat)

namespace StatsSystem

/-- The number of the last call. -/
def lastCall (s : StatsSystem) : Nat := s.calls.length - 1

/-- `update_workspace_stats` returns only once an attempt of its call is over. -/
def allows (s : StatsSystem) : WorkflowEvent → Bool
  | .updateWorkspaceStats (.ok _) => s.attempts.contains ⟨s.lastCall, true⟩
  | _ => true

/-- What the event says about the stats of the run. -/
def track (s : StatsSystem) : WorkflowEvent → StatsSystem
  | .chunkConversation (.ok chunkCount) => { s with chunkCount := chunkCount }
  | .store target (.ok output) =>
    match s.run.await with
    | .store flush _ pg wv =>
      match gathered pg wv target output with
      | some (pg, wv) => { s with calls := s.calls ++ [s.run.statsInput flush s.chunkCount pg wv] }
      | none => s
    | _ => s
  | .updateWorkspaceStats (.ok _) => { s with flushed := s.flushed ++ s.calls.getLast?.toList }
  | _ => s

/-- One event. -/
def step (s : StatsSystem) : StatsEvent → Option StatsSystem
  | .workflow e =>
    if s.allows e then (s.run.step e).map fun run => { s.track e with run := run } else none
  | .startAttempt =>
    match s.run.await with
    | .updateWorkspaceStats _ => some { s with attempts := s.attempts ++ [{ call := s.lastCall }] }
    | _ => none
  | .commit k =>
    match s.attempts[k]? with
    | some ⟨call, false⟩ =>
      match s.calls[call]? with
      | some input =>
        some { s with
          attempts := s.attempts.set k ⟨call, true⟩
          tables := (updateWorkspaceStats input s.tables).1
          countedBy := if s.tables.ledger.Holds s.run.workflowRunId then s.countedBy else some call }
      | none => none
    | _ => none
  | .raise k =>
    match s.attempts[k]? with
    | some ⟨call, false⟩ => some { s with attempts := s.attempts.set k ⟨call, true⟩ }
    | _ => none

/-- A new run of a conversation.  `ensure_workspace_ready` has created the row of the
    workspace, and no run has its id. -/
def start (input : ConversationMemoryInput) (workflowRunId : RunId) (now : Timestamp)
    (metadata : WorkspaceMetadata) (ledger : UniqueTable (id : RunId → RunId)) : StatsSystem where
  run := .new input workflowRunId now
  tables := {
    metadata := some metadata
    ledger := ledger }

end StatsSystem

end Inherent
