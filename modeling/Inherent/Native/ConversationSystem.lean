import Inherent.Native.ConversationWorkflow
import Mathlib

/-!
# A conversation document and its runs

One conversation: the successive runs of its workflow, the attempts of the activities
that they schedule, and the tables that these write.  An activity may have any number of
attempts, and an attempt goes on after the workflow has stopped waiting for it.

`flushes` numbers the batches that `_flush` took, over all runs.  The number that an
attempt, a staged row or a write carries says which flush it was made for; no code reads
it.
-/

namespace Inherent

/-- `uq_dead_letter_jobs`: `(document_id, workflow_run_id, dedup_key)`. -/
def DeadLetterJob.key (job : DeadLetterJob) : String × RunId × String :=
  (job.documentId, job.workflowRunId, job.dedupKey)

/-- The detectors and the settings of the activities. -/
structure ConversationConfig where
  redactText : RedactText
  settings : ChunkSettings := {}

/-- A batch that `_flush` took, and for which run and document. -/
structure FlushRecord where
  workflowRunId : RunId
  workspaceId : String
  documentId : String
  turns : List BufferedTurn
  deriving DecidableEq, Repr

/-- The record of a flush of `turns` by the run. -/
def ConversationRun.flushRecord (run : ConversationRun) (turns : List BufferedTurn) :
    FlushRecord where
  workflowRunId := run.workflowRunId
  workspaceId := run.self.workspaceId
  documentId := run.self.documentId
  turns := turns

/-- How far an attempt of a store activity is. -/
inductive StorePhase where
  | started
  /-- It has read its chunks from staging. -/
  | read (chunks : List StagedChunk)
  /-- A Weaviate attempt has passed `is_active_run`. -/
  | permitted (chunks : List StagedChunk)
  | finished (chunks : List StagedChunk) (output : StoreDocumentOutput)
  deriving DecidableEq, Repr

/-- The chunks that the attempt has read. -/
def StorePhase.chunks? : StorePhase → Option (List StagedChunk)
  | .started => none
  | .read chunks => some chunks
  | .permitted chunks => some chunks
  | .finished chunks _ => some chunks

/-- An attempt of an activity that was scheduled for the flush with the number `flushNo`. -/
inductive Attempt where
  /-- `chunk_conversation`: the start index it read, and whether it has staged. -/
  | chunk (flushNo : Nat) (input : ChunkConversationInput) (startIndex : Option Nat)
      (staged : Bool)
  /-- `store_in_postgresql` or `store_in_weaviate`. -/
  | store (flushNo : Nat) (target : StoreTarget) (input : StoreDocumentInput)
      (phase : StorePhase)
  deriving DecidableEq, Repr

/-- The `chunks` row of a run in `ingestion_staging`, with the flush that wrote it. -/
structure StagedRow where
  flushNo : Nat
  chunks : List StagedChunk
  deriving DecidableEq, Repr

/-- A write to one of the stores, with the flush of the attempt that made it. -/
structure StoreWrite where
  flushNo : Nat
  target : StoreTarget
  chunks : List StagedChunk
  deriving DecidableEq, Repr

/-- The runs of one conversation, the open attempts and the tables. -/
structure ConversationSystem where
  run : ConversationRun
  usedRunIds : List RunId := []
  flushes : List FlushRecord := []
  attempts : List Attempt := []
  doc : Option Document := none
  staging : RunId → Option StagedRow := fun _ => none
  deadLetters : UniqueTable DeadLetterJob.key := .empty
  audits : List RedactionAudit := []
  writes : List StoreWrite := []

/-- What can happen in a conversation. -/
inductive SystemEvent where
  /-- An event of the current run that writes none of the tables. -/
  | workflow (e : WorkflowEvent)
  /-- The one attempt of `redact_turns` ends; `landed` says which audit rows were written,
      `error` that the activity fails. -/
  | redactTurns (landed : List Bool) (error : Option String)
  /-- The attempt with the number `k` of `chunk_conversation` reads the chunk count. -/
  | readChunkCount (k : Nat)
  /-- It writes its chunks to staging. -/
  | stageChunks (k : Nat)
  /-- Its result reaches the workflow. -/
  | chunkDone (k : Nat)
  /-- The attempt with the number `k` of a store activity reads staging. -/
  | readStaging (k : Nat)
  /-- A Weaviate attempt asks `is_active_run`. -/
  | checkFence (k : Nat)
  /-- A store attempt writes to its store. -/
  | commit (k : Nat) (now : Timestamp)
  /-- Its result reaches the workflow. -/
  | storeDone (k : Nat)
  /-- Another attempt of the activity of attempt `k` starts. -/
  | retry (k : Nat)
  | recordDeadLetter
  | cleanupStaging
  /-- A late attempt of `cleanup_staging`, or the sweep of stale rows. -/
  | deleteStaging (workflowRunId : RunId)
  /-- The run has ended and the next one starts. -/
  | nextRun (input : ConversationMemoryInput) (workflowRunId : RunId) (now : Timestamp)

namespace ConversationSystem

/-- The number of the current flush. -/
def flushNo (s : ConversationSystem) : Nat := s.flushes.length - 1

/-- The event writes none of the tables: it is a signal, a timer, an activity without effect
    on them, or the failure of an activity for good. -/
def isLocal : WorkflowEvent → Bool
  | .redactTurns _ => false
  | .chunkConversation (.ok _) => false
  | .store _ (.ok _) => false
  | .recordDeadLetter _ => false
  | .cleanupStaging (.ok _) => false
  | _ => true

/-- The flush that the run began when it went on to `run`. -/
def begunFlushes (run : ConversationRun) : List FlushRecord :=
  match run.await with
  | .redactTurns turns => [run.flushRecord turns]
  | _ => []

/-- A timer or a condition has moved the run on to `run`. -/
def afterTimer (s : ConversationSystem) (run : ConversationRun) : ConversationSystem :=
  { s with run := run, flushes := s.flushes ++ begunFlushes run }

/-- The first attempt of `chunk_conversation`, if `run` has scheduled it. -/
def chunkAttempts (s : ConversationSystem) (run : ConversationRun) : List Attempt :=
  match run.await with
  | .chunkConversation flush =>
    [.chunk s.flushNo (run.chunkConversationInput flush) none false]
  | _ => []

/-- The run has gone on to `run` after `redact_turns`. -/
def scheduleChunk (s : ConversationSystem) (run : ConversationRun) : ConversationSystem :=
  { s with run := run, attempts := s.attempts ++ s.chunkAttempts run }

/-- The first attempts of the two stores, if `run` has scheduled them. -/
def storeAttempts (s : ConversationSystem) (run : ConversationRun) : List Attempt :=
  match run.await with
  | .store _ input _ _ =>
    [.store s.flushNo .postgresql input .started, .store s.flushNo .weaviate input .started]
  | _ => []

/-- The run has gone on to `run` after `chunk_conversation`. -/
def scheduleStores (s : ConversationSystem) (run : ConversationRun) : ConversationSystem :=
  { s with run := run, attempts := s.attempts ++ s.storeAttempts run }

/-- The audit rows that were written. -/
def landedAudits (audits : List RedactionAudit) (landed : List Bool) : List RedactionAudit :=
  (audits.zip landed).filterMap fun p => if p.2 then some p.1 else none

/-- `redact_turns` ends with its output, or with `error`. -/
def redactTurns (c : ConversationConfig) (s : ConversationSystem) (landed : List Bool)
    (error : Option String) : Option ConversationSystem :=
  match s.run.await with
  | .redactTurns turns =>
    let result := Inherent.redactTurns c.redactText (s.run.redactTurnsInput turns)
    let outcome := match error with
      | none => ActivityResult.ok result.1
      | some error => .failed error
    let s := { s with audits := s.audits ++ landedAudits result.2 landed }
    (s.run.step (.redactTurns outcome)).map s.scheduleChunk
  | _ => none

/-- `read_chunks`: it raises when the run has no row, and the attempt is over. -/
def readStaging (s : ConversationSystem) (k : Nat) : Option ConversationSystem :=
  match s.attempts[k]? with
  | some (.store flushNo target input .started) =>
    match s.staging input.workflowRunId with
    | none => some s
    | some row =>
      some { s with attempts := s.attempts.set k (.store flushNo target input (.read row.chunks)) }
  | _ => none

/-- The check of `store_in_weaviate` before it writes. -/
def checkFence (s : ConversationSystem) (k : Nat) : Option ConversationSystem :=
  match s.attempts[k]? with
  | some (.store flushNo .weaviate input (.read chunks)) =>
    let phase := if isActiveRun input.workflowRunId s.doc then StorePhase.permitted chunks
      else .finished chunks .supersededByNewerRun
    some { s with attempts := s.attempts.set k (.store flushNo .weaviate input phase) }
  | _ => none

/-- The transaction of `store_in_postgresql`, or the batch write of `store_in_weaviate`. -/
def commit (s : ConversationSystem) (k : Nat) (now : Timestamp) : Option ConversationSystem :=
  match s.attempts[k]? with
  | some (.store flushNo .postgresql input (.read chunks)) =>
    let result := storeInPostgresql input now chunks s.doc
    let attempt := Attempt.store flushNo .postgresql input (.finished chunks result.2)
    some { s with
      doc := result.1
      attempts := s.attempts.set k attempt
      writes := if result.2.success then s.writes ++ [⟨flushNo, .postgresql, chunks⟩]
        else s.writes }
  | some (.store flushNo .weaviate input (.permitted chunks)) =>
    let output : StoreDocumentOutput := { success := true, chunksStored := chunks.length }
    some { s with
      attempts := s.attempts.set k (.store flushNo .weaviate input (.finished chunks output))
      writes := s.writes ++ [⟨flushNo, .weaviate, chunks⟩] }
  | _ => none

/-- The attempt that a retry of the attempt starts. -/
def Attempt.restarted : Attempt → Attempt
  | .chunk flushNo input _ _ => .chunk flushNo input none false
  | .store flushNo target input _ => .store flushNo target input .started

/-- The input of the run that follows one with the outcome: `continue_as_new` hands it over,
    and otherwise the next turn starts the same conversation afresh. -/
def follows (ended : ConversationRun) (outcome : RunOutcome) (input : ConversationMemoryInput) :
    Prop :=
  match outcome with
  | .continuedAsNew next => input = next
  | _ => input.workspaceId = ended.input.workspaceId ∧
      input.externalId = ended.input.externalId ∧ input.seenTurnIds = [] ∧
      input.tenantId = none ∧ input.documentCreated = false

instance (ended : ConversationRun) (outcome : RunOutcome) (input : ConversationMemoryInput) :
    Decidable (follows ended outcome input) := by
  unfold follows
  cases outcome <;> infer_instance

/-- One event. -/
def step (c : ConversationConfig) (s : ConversationSystem) :
    SystemEvent → Option ConversationSystem
  | .workflow .conditionMet => (s.run.step .conditionMet).map s.afterTimer
  | .workflow .timeout => (s.run.step .timeout).map s.afterTimer
  | .workflow e =>
    if isLocal e then (s.run.step e).map fun run => { s with run := run } else none
  | .redactTurns landed error => redactTurns c s landed error
  | .readChunkCount k =>
    match s.attempts[k]? with
    | some (.chunk flushNo input none false) =>
      let start := getDocumentChunkCount s.doc
      some { s with attempts := s.attempts.set k (.chunk flushNo input (some start) false) }
    | _ => none
  | .stageChunks k =>
    match s.attempts[k]? with
    | some (.chunk flushNo input (some start) false) =>
      let row : StagedRow := ⟨flushNo, Inherent.chunkConversation c.settings input start⟩
      some { s with
        staging := Function.update s.staging input.workflowRunId (some row)
        attempts := s.attempts.set k (.chunk flushNo input (some start) true) }
    | _ => none
  | .chunkDone k =>
    match s.attempts[k]? with
    | some (.chunk flushNo input (some start) true) =>
      if flushNo = s.flushNo then
        let count := (Inherent.chunkConversation c.settings input start).length
        (s.run.step (.chunkConversation (.ok count))).map s.scheduleStores
      else none
    | _ => none
  | .readStaging k => s.readStaging k
  | .checkFence k => s.checkFence k
  | .commit k now => s.commit k now
  | .storeDone k =>
    match s.attempts[k]? with
    | some (.store flushNo target _ (.finished _ output)) =>
      if flushNo = s.flushNo then
        (s.run.step (.store target (.ok output))).map fun run => { s with run := run }
      else none
    | _ => none
  | .retry k =>
    match s.attempts[k]? with
    | some attempt => some { s with attempts := s.attempts ++ [Attempt.restarted attempt] }
    | none => none
  | .recordDeadLetter =>
    match s.run.await with
    | .recordDeadLetter _ job =>
      (s.run.step (.recordDeadLetter (.ok ()))).map fun run =>
        { s with run := run, deadLetters := s.deadLetters.insertNew job }
    | _ => none
  | .cleanupStaging =>
    (s.run.step (.cleanupStaging (.ok ()))).map fun run =>
      { s with
        run := run
        staging := Function.update s.staging run.workflowRunId none }
  | .deleteStaging workflowRunId =>
    some { s with staging := Function.update s.staging workflowRunId none }
  | .nextRun input workflowRunId now =>
    match s.run.await with
    | .ended outcome =>
      if follows s.run outcome input ∧ workflowRunId ∉ s.usedRunIds then
        some { s with
          run := .new input workflowRunId now
          usedRunIds := workflowRunId :: s.usedRunIds }
      else none
    | _ => none

/-- A conversation before its first run has done anything. -/
def start (input : ConversationMemoryInput) (workflowRunId : RunId) (now : Timestamp) :
    ConversationSystem where
  run := .new input workflowRunId now
  usedRunIds := [workflowRunId]

end ConversationSystem

end Inherent
