import Inherent.Native.Conversation

/-!
# `ConversationMemoryWorkflow`

The workflow as the machine that Temporal runs: between two `await`s its code runs
without interruption, and while it is suspended signals are handled and activities
complete.  `ConversationRun` is the workflow object with the local variables of `run`
and the `await` at which it is suspended; a `WorkflowEvent` resumes it or runs a signal
handler.  What an activity does to the stores is not part of this file: an event only
carries its result.
-/

namespace Inherent

/-- The outcome of an activity once its retry policy is done with it: its result, or the
    text of the `ActivityError`. -/
inductive ActivityResult (α : Type) where
  | ok (a : α)
  | failed (error : String)
  deriving DecidableEq, Repr

/-- `_SEEN_TURN_IDS_BOUND`. -/
def seenTurnIdsBound : Nat := 2000

/-- `CONVERSATION_CONTENT_TYPE`. -/
def conversationContentType : String := "application/x-inherent-conversation"

/-- `CONVERSATION_STORAGE_BACKEND`. -/
def conversationStorageBackend : String := "local"

/-- The fields of the workflow object.  `_seen_turn_ids` is an insertion-ordered set. -/
structure ConversationMemoryWorkflow where
  workspaceId : String := ""
  externalId : String := ""
  userId : String := ""
  documentId : String := ""
  tenantId : Option Nat := none
  documentCreated : Bool := false
  buffer : List BufferedTurn := []
  bufferedChars : Nat := 0
  totalTurnsFlushed : Nat := 0
  closed : Bool := false
  seenTurnIds : List String := []
  lastActivityTime : Option Timestamp := none
  deriving DecidableEq, Repr

/-- The turn as `add_turn` buffers it. -/
def ConversationTurnSignal.buffered (turn : ConversationTurnSignal) : BufferedTurn where
  turnId := turn.turnId
  role := turn.role
  text := turn.text
  ts := turn.ts
  client := turn.client

namespace ConversationMemoryWorkflow

/-- `add_turn`: a turn id that was seen is a no-op. -/
def addTurn (w : ConversationMemoryWorkflow) (now : Timestamp) (turn : ConversationTurnSignal) :
    ConversationMemoryWorkflow :=
  if turn.turnId ∈ w.seenTurnIds then w
  else
    let seen := w.seenTurnIds ++ [turn.turnId]
    { w with
      lastActivityTime := some now
      -- `popitem(last=False)` evicts the oldest id
      seenTurnIds := if seenTurnIdsBound < seen.length then seen.tail else seen
      userId := turn.userId
      buffer := w.buffer ++ [turn.buffered]
      bufferedChars := w.bufferedChars + turn.text.length }

/-- `close`. -/
def close (w : ConversationMemoryWorkflow) : ConversationMemoryWorkflow := { w with closed := true }

/-- `self._seen_turn_ids[turn_id] = None` for each id in order. -/
def remember (w : ConversationMemoryWorkflow) (turnIds : List String) :
    ConversationMemoryWorkflow :=
  let add := fun (seen : List String) turnId => if turnId ∈ seen then seen else seen ++ [turnId]
  { w with seenTurnIds := turnIds.foldl add w.seenTurnIds }

/-- The assignments of `run` before its first `await`. -/
def begin (w : ConversationMemoryWorkflow) (input : ConversationMemoryInput) (now : Timestamp) :
    ConversationMemoryWorkflow :=
  { (w.remember input.seenTurnIds) with
    workspaceId := input.workspaceId
    externalId := input.externalId
    userId := input.userId
    documentId := conversationDocumentId input.workspaceId input.externalId
    tenantId := input.tenantId
    documentCreated := input.documentCreated
    lastActivityTime := some now }

/-- The first lines of `_flush`: the buffer is taken. -/
def takeBuffer (w : ConversationMemoryWorkflow) : ConversationMemoryWorkflow :=
  { w with buffer := [], bufferedChars := 0 }

end ConversationMemoryWorkflow

/-- What `_dead_letter_flush` records: `RecordDeadLetterInput` with its `payload`.  A batch
    whose redaction failed has no text that may be kept. -/
structure DeadLetterJob where
  documentId : String
  workspaceId : String
  userId : String
  workflowRunId : RunId
  externalId : String
  workflowId : String
  stage : String
  turnIds : List String
  turnCount : Nat
  redactedTurns : Option (List RedactedTurn)
  errorMessage : String
  errorType : String
  dedupKey : String
  deriving DecidableEq, Repr

/-- A flush past its redaction: the turns it took and what redaction left of them. -/
structure Flush where
  turns : List BufferedTurn
  redacted : List RedactedTurn
  deriving DecidableEq, Repr

/-- How a run ends. -/
inductive RunOutcome where
  /-- `run` returns after `_finalize`. -/
  | completed
  /-- `workflow.continue_as_new`. -/
  | continuedAsNew (input : ConversationMemoryInput)
  /-- An exception leaves `run`. -/
  | failed (error : String)
  deriving DecidableEq, Repr

/-- The `await` at which the run is suspended. -/
inductive Await where
  /-- `run` has not been called; signal handlers can run before it. -/
  | notStarted
  | ensureTenantReady
  /-- The wait for the next turn, until the idle deadline. -/
  | idle (deadline : Timestamp)
  /-- The debounce of a nonempty buffer. -/
  | debounce (deadline : Timestamp)
  | redactTurns (turns : List BufferedTurn)
  | chunkConversation (flush : Flush)
  /-- `asyncio.gather` of the two stores: the input of both and the results so far. -/
  | store (flush : Flush) (input : StoreDocumentInput) (pg wv : Option StoreDocumentOutput)
  | updateWorkspaceStats (flush : Flush)
  | recordDeadLetter (turns : List BufferedTurn) (job : DeadLetterJob)
  | cleanupStaging (turns : List BufferedTurn)
  | publishCompletion
  | ended (outcome : RunOutcome)
  deriving DecidableEq, Repr

/-- A run of the workflow, suspended. -/
structure ConversationRun where
  self : ConversationMemoryWorkflow := {}
  input : ConversationMemoryInput
  workflowRunId : RunId
  now : Timestamp
  turnsSinceContinue : Nat := 0
  await : Await := .notStarted
  deriving DecidableEq, Repr

/-- What resumes a run or runs one of its signal handlers. -/
inductive WorkflowEvent where
  | addTurn (turn : ConversationTurnSignal)
  | close
  /-- `run` is called. -/
  | start
  /-- Time passes. -/
  | tick (now : Timestamp)
  /-- The condition of the `wait_condition` holds. -/
  | conditionMet
  /-- The timer of the `wait_condition` fires. -/
  | timeout
  | ensureTenantReady (result : ActivityResult (Option Nat))
  | redactTurns (result : ActivityResult RedactTurnsOutput)
  | chunkConversation (result : ActivityResult Nat)
  | store (target : StoreTarget) (result : ActivityResult StoreDocumentOutput)
  | updateWorkspaceStats (result : ActivityResult Unit)
  | recordDeadLetter (result : ActivityResult Unit)
  | cleanupStaging (result : ActivityResult Unit)
  | publishCompletion (result : ActivityResult Unit)
  deriving DecidableEq, Repr

namespace ConversationRun

/-- A run as Temporal creates it. -/
def new (input : ConversationMemoryInput) (workflowRunId : RunId) (now : Timestamp) :
    ConversationRun where
  input := input
  workflowRunId := workflowRunId
  now := now

/-- `_finalize`. -/
def finalize (s : ConversationRun) : ConversationRun := { s with await := .publishCompletion }

/-- The top of the `while True` loop. -/
def loop (s : ConversationRun) : ConversationRun :=
  if s.self.buffer = [] then
    let elapsed := s.now - s.self.lastActivityTime.getD s.now
    if s.input.idleFinalizeSeconds ≤ elapsed then s.finalize
    else { s with await := .idle (s.now + (s.input.idleFinalizeSeconds - elapsed)) }
  else { s with await := .debounce (s.now + s.input.flushIdleSeconds) }

/-- `run`, up to its first `await`. -/
def begin (s : ConversationRun) : ConversationRun :=
  let s := { s with self := s.self.begin s.input s.now }
  if s.self.tenantId = none then { s with await := .ensureTenantReady } else s.loop

/-- The condition of the `wait_condition` at which the run is suspended. -/
def condition (s : ConversationRun) : Bool :=
  match s.await with
  | .idle _ => s.self.buffer ≠ [] || s.self.closed
  | .debounce _ => s.input.flushCharThreshold ≤ s.self.bufferedChars || s.self.closed
  | _ => false

/-- The code after the idle wait when its condition held. -/
def afterIdle (s : ConversationRun) : ConversationRun :=
  if s.self.closed ∧ s.self.buffer = [] then s.finalize else s.loop

/-- The input of the next run. -/
def continueAsNewInput (s : ConversationRun) : ConversationMemoryInput :=
  { s.input with
    workspaceId := s.self.workspaceId
    externalId := s.self.externalId
    userId := s.self.userId
    tenantId := s.self.tenantId
    documentCreated := s.self.documentCreated
    seenTurnIds := s.self.seenTurnIds }

/-- The code of `run` after a `_flush` of `turns`. -/
def afterFlush (s : ConversationRun) (turns : List BufferedTurn) : ConversationRun :=
  let s := { s with turnsSinceContinue := s.turnsSinceContinue + turns.length }
  if s.self.closed then s.finalize
  else if s.input.continueAsNewTurns ≤ s.turnsSinceContinue then
    { s with await := .ended (.continuedAsNew s.continueAsNewInput) }
  else s.loop

/-- `_flush`, up to its first `await`. -/
def flush (s : ConversationRun) : ConversationRun :=
  if s.self.buffer = [] then { s with self := s.self.takeBuffer }.afterFlush []
  else { s with self := s.self.takeBuffer, await := .redactTurns s.self.buffer }

/-- `_dead_letter_flush`, up to its `await`. -/
def deadLetterFlush (s : ConversationRun) (turns : List BufferedTurn) (error stage : String)
    (redactedTurns : Option (List RedactedTurn)) : ConversationRun :=
  { s with await := .recordDeadLetter turns {
      documentId := s.self.documentId
      workspaceId := s.self.workspaceId
      userId := s.self.userId
      workflowRunId := s.workflowRunId
      externalId := s.self.externalId
      workflowId := conversationWorkflowId s.input.workspaceId s.input.externalId
      stage := stage
      turnIds := turns.map BufferedTurn.turnId
      turnCount := turns.length
      redactedTurns := redactedTurns
      errorMessage := error
      errorType := "conversation_flush_" ++ stage ++ "_failed"
      dedupKey := (turns.head?.map BufferedTurn.turnId).getD "" } }

/-- The input of `redact_turns`. -/
def redactTurnsInput (s : ConversationRun) (turns : List BufferedTurn) : RedactTurnsInput where
  turns := turns.map fun t => { turnId := t.turnId, text := t.text, role := some t.role }
  workflowRunId := some s.workflowRunId
  workspaceId := some s.self.workspaceId
  documentId := some s.self.documentId

/-- The code of `_flush` after `redact_turns`. -/
def afterRedact (s : ConversationRun) (turns : List BufferedTurn) :
    ActivityResult RedactTurnsOutput → ConversationRun
  | .failed error => s.deadLetterFlush turns error "redact_turns" none
  | .ok output =>
    if output.redactedTurns = [] then s.afterFlush turns
    else { s with await := .chunkConversation ⟨turns, output.redactedTurns⟩ }

/-- `turn_meta`: `ts` and `client` of each redacted turn, from the last buffered turn with
    its id. -/
def turnMeta (flush : Flush) : List ConversationTurnMeta :=
  flush.redacted.filterMap fun rt =>
    (flush.turns.reverse.find? fun t => t.turnId = rt.turnId).map fun t =>
      { turnId := rt.turnId, ts := t.ts, client := t.client }

/-- The input of `chunk_conversation`. -/
def chunkConversationInput (s : ConversationRun) (flush : Flush) : ChunkConversationInput where
  workflowRunId := s.workflowRunId
  documentId := s.self.documentId
  workspaceId := some s.self.workspaceId
  redactedTurns := flush.redacted
  turnMeta := turnMeta flush

/-- `flush_text_length`. -/
def flushTextLength (redacted : List RedactedTurn) : Nat :=
  (redacted.map fun rt => rt.text.length).sum

/-- `store_input`, with the turn count of this flush already added. -/
def storeInput (s : ConversationRun) (flush : Flush) : StoreDocumentInput where
  workflowRunId := s.workflowRunId
  documentId := s.self.documentId
  workspaceId := s.self.workspaceId
  userId := s.self.userId
  filename := s.self.documentId
  originalFilename := s.self.externalId
  contentType := conversationContentType
  sizeBytes := max (flushTextLength flush.redacted) 1
  storageBackend := conversationStorageBackend
  storagePath := "conversation://" ++ s.self.workspaceId ++ "/" ++ s.self.externalId
  textLength := flushTextLength flush.redacted
  processingTimeMs := 0
  tenantId := s.self.tenantId
  append := true
  documentType := "conversation"
  externalId := some s.self.externalId
  metadata := some { turnCount := s.self.totalTurnsFlushed, lastFlushedAt := s.now }

/-- The code of `_flush` after `chunk_conversation`. -/
def afterChunk (s : ConversationRun) (flush : Flush) : ActivityResult Nat → ConversationRun
  | .failed error =>
    s.deadLetterFlush flush.turns error "chunk_conversation" (some flush.redacted)
  | .ok chunkCount =>
    if chunkCount = 0 then s.afterFlush flush.turns
    else
      let total := s.self.totalTurnsFlushed + flush.turns.length
      let s := { s with self := { s.self with totalTurnsFlushed := total } }
      { s with await := .store flush (s.storeInput flush) none none }

/-- The code of `_flush` when both stores have returned. -/
def afterGather (s : ConversationRun) (flush : Flush) (pg : StoreDocumentOutput) :
    ConversationRun :=
  { s with
    self := { s.self with documentCreated := s.self.documentCreated || pg.success }
    await := .updateWorkspaceStats flush }

/-- A store returns to `asyncio.gather`: the first failure leaves it at once, the sibling
    activity still running. -/
def afterStore (s : ConversationRun) (flush : Flush) (input : StoreDocumentInput)
    (pg wv : Option StoreDocumentOutput) (target : StoreTarget) :
    ActivityResult StoreDocumentOutput → ConversationRun
  | .failed error =>
    s.deadLetterFlush flush.turns error target.activityType (some flush.redacted)
  | .ok output =>
    let pg := if target = .postgresql then some output else pg
    let wv := if target = .weaviate then some output else wv
    match pg, wv with
    | some pg, some _ => s.afterGather flush pg
    | _, _ => { s with await := .store flush input pg wv }

/-- The code of `_flush` after `update_workspace_stats`. -/
def afterStats (s : ConversationRun) (flush : Flush) : ActivityResult Unit → ConversationRun
  | .failed error =>
    s.deadLetterFlush flush.turns error "update_workspace_stats" (some flush.redacted)
  | .ok _ => { s with await := .cleanupStaging flush.turns }

/-- The result of a store is awaited: `gather` still waits for it. -/
def awaitsStore (pg wv : Option StoreDocumentOutput) : StoreTarget → Bool
  | .postgresql => pg.isNone
  | .weaviate => wv.isNone

/-- One event.  `none`: the run is not suspended at what the event resumes. -/
def step (s : ConversationRun) : WorkflowEvent → Option ConversationRun
  | .addTurn turn =>
    match s.await with
    | .ended _ => none
    | _ => some { s with self := s.self.addTurn s.now turn }
  | .close =>
    match s.await with
    | .ended _ => none
    | _ => some { s with self := s.self.close }
  | .tick now => if s.now ≤ now then some { s with now := now } else none
  | .start =>
    match s.await with
    | .notStarted => some s.begin
    | _ => none
  | .conditionMet =>
    match s.await with
    | .idle _ => if s.condition then some s.afterIdle else none
    | .debounce _ => if s.condition then some s.flush else none
    | _ => none
  | .timeout =>
    match s.await with
    | .idle deadline => if ¬ s.condition ∧ deadline ≤ s.now then some s.finalize else none
    | .debounce deadline => if ¬ s.condition ∧ deadline ≤ s.now then some s.flush else none
    | _ => none
  | .ensureTenantReady result =>
    match s.await, result with
    | .ensureTenantReady, .ok tenantId =>
      some { s with self := { s.self with tenantId := tenantId } }.loop
    | .ensureTenantReady, .failed error => some { s with await := .ended (.failed error) }
    | _, _ => none
  | .redactTurns result =>
    match s.await with
    | .redactTurns turns => some (s.afterRedact turns result)
    | _ => none
  | .chunkConversation result =>
    match s.await with
    | .chunkConversation flush => some (s.afterChunk flush result)
    | _ => none
  | .store target result =>
    match s.await with
    | .store flush input pg wv =>
      if awaitsStore pg wv target then some (s.afterStore flush input pg wv target result)
      else none
    | _ => none
  | .updateWorkspaceStats result =>
    match s.await with
    | .updateWorkspaceStats flush => some (s.afterStats flush result)
    | _ => none
  | .recordDeadLetter _ =>
    match s.await with
    | .recordDeadLetter turns _ => some (s.afterFlush turns)
    | _ => none
  | .cleanupStaging _ =>
    match s.await with
    | .cleanupStaging turns => some (s.afterFlush turns)
    | _ => none
  | .publishCompletion _ =>
    match s.await with
    | .publishCompletion => some { s with await := .ended .completed }
    | _ => none

end ConversationRun

end Inherent
