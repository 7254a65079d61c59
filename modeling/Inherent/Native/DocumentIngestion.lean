import Inherent.Native.ConversationWorkflow
import Inherent.Native.Store

/-!
# `DocumentIngestionWorkflow`, from the store phase on

One run of the workflow once `chunk_text` has staged its chunks: the two stores that run in
parallel, the status writes, and the attempts of these activities.  An attempt goes on after
the workflow has stopped waiting for it, and it may stop for good at any point.
`create_pending_document` of another run is the one thing here that another run does.
-/

namespace Inherent

/-- The chunks that `chunk_text` stages: it numbers them, so their indices are distinct. -/
structure StagedBatch where
  chunks : List StagedChunk
  indices : (chunks.map StagedChunk.chunkIndex).Nodup

/-- The per-document overrides of the chunking strategy. -/
inductive ChunkingStrategy where
  | tokens
  | sentences
  | paragraphs
  deriving DecidableEq, Repr

/-- `DocumentIngestionInput` (`temporal/models.py`). -/
structure DocumentIngestionInput where
  documentId : String
  workspaceId : String
  userId : String
  filename : String
  originalFilename : String
  contentType : String
  sizeBytes : Nat
  storageBackend : String
  storagePath : String
  storageBucket : Option String := none
  storageUrl : Option String := none
  uploadedBy : Option String := none
  sourceUrl : Option String := none
  timestamp : String := ""
  chunkingStrategy : Option ChunkingStrategy := none
  maxChunkSize : Option Nat := none
  chunkOverlap : Option Nat := none
  verticalPack : Option String := none
  deriving DecidableEq, Repr

/-- The local variables of `run` that `store_input` is built from. -/
structure IngestionLocals where
  workflowRunId : RunId
  tenantId : Option Nat
  textLength : Nat
  processingTimeMs : Nat
  deriving DecidableEq, Repr

/-- `store_input`: it does not set `append`. -/
def DocumentIngestionInput.storeInput (input : DocumentIngestionInput) (l : IngestionLocals) :
    StoreDocumentInput where
  workflowRunId := l.workflowRunId
  documentId := input.documentId
  workspaceId := input.workspaceId
  userId := input.userId
  filename := input.filename
  originalFilename := input.originalFilename
  contentType := input.contentType
  sizeBytes := input.sizeBytes
  storageBackend := input.storageBackend
  storagePath := input.storagePath
  textLength := l.textLength
  processingTimeMs := l.processingTimeMs
  tenantId := l.tenantId
  uploadedBy := input.uploadedBy
  sourceUrl := input.sourceUrl

/-! ## The workflow -/

/-- The `await` at which the run is suspended; `error` is its `terminal_failure`. -/
inductive IngestionAwait where
  /-- `asyncio.gather` of the two stores, with the results so far. -/
  | store (pg wv : Option StoreDocumentOutput)
  | updateWorkspaceStats
  | resolveDeadLetterJobs
  /-- `set_document_status` to `failed`. -/
  | setFailed (error : String)
  | recordDeadLetter (error : String)
  | publishCompletion (error : Option String)
  | cleanupStaging (error : Option String)
  | ended (error : Option String)
  deriving DecidableEq, Repr

namespace IngestionAwait

/-- The code after `asyncio.gather`. -/
def afterGather (pg wv : StoreDocumentOutput) : IngestionAwait :=
  if !pg.success then .setFailed ("PostgreSQL storage failed: " ++ pg.error.getD "None")
  else if !wv.success then .setFailed ("Weaviate storage failed: " ++ wv.error.getD "None")
  else .updateWorkspaceStats

/-- A store returns to `asyncio.gather`: the first failure leaves it for the `except` branch,
    the sibling activity still running. -/
def afterStore (pg wv : Option StoreDocumentOutput) (target : StoreTarget) :
    ActivityResult StoreDocumentOutput → IngestionAwait
  | .failed error => .setFailed error
  | .ok output =>
    let pg := if target = .postgresql then some output else pg
    let wv := if target = .weaviate then some output else wv
    match pg, wv with
    | some pg, some wv => afterGather pg wv
    | _, _ => .store pg wv

/-- The code after `update_workspace_stats`. -/
def afterStats : ActivityResult Unit → IngestionAwait
  | .failed error => .setFailed error
  | .ok _ => .resolveDeadLetterJobs

/-- The code after the result of a best-effort activity, whether it failed or not. -/
def afterBestEffort : IngestionAwait → Option IngestionAwait
  | .resolveDeadLetterJobs => some (.publishCompletion none)
  | .recordDeadLetter error => some (.publishCompletion (some error))
  | .publishCompletion error => some (.cleanupStaging error)
  | .cleanupStaging error => some (.ended error)
  | _ => none

end IngestionAwait

/-! ## The attempts -/

/-- How far an attempt of a store activity is. -/
inductive ReplacePhase where
  | started
  /-- It has read its chunks from staging. -/
  | read (chunks : List StagedChunk)
  /-- A Weaviate attempt has passed `is_active_run`. -/
  | permitted (chunks : List StagedChunk)
  /-- A Weaviate attempt is past its delete. -/
  | deleted (chunks : List StagedChunk)
  | finished (output : StoreDocumentOutput)
  | raised
  deriving DecidableEq, Repr

/-- An attempt of an activity of the run. -/
inductive IngestionAttempt where
  /-- `store_in_postgresql` or `store_in_weaviate`. -/
  | store (target : StoreTarget) (phase : ReplacePhase)
  /-- `set_document_status`, and whether it has written. -/
  | status (status : DocumentStatus) (errorMessage : Option String) (written : Bool)
  deriving DecidableEq, Repr

/-- The attempt that a retry of the attempt starts. -/
def IngestionAttempt.restarted : IngestionAttempt → IngestionAttempt
  | .store target _ => .store target .started
  | .status value errorMessage _ => .status value errorMessage false

/-- The run, its attempts, and the document in both stores. -/
structure IngestionSystem where
  input : StoreDocumentInput
  await : IngestionAwait := .store none none
  attempts : List IngestionAttempt
  doc : Option Document
  objects : ObjectTable
  /-- The `chunks` row of the run in `ingestion_staging`. -/
  staging : Option (List StagedChunk)

/-- What can happen. -/
inductive IngestionEvent where
  /-- The attempt with the number `k` of a store activity reads staging. -/
  | readStaging (k : Nat)
  /-- A Weaviate attempt asks `is_active_run`. -/
  | checkFence (k : Nat)
  /-- A Weaviate attempt deletes the document's objects; `deleted` says whether the delete
      went through. -/
  | deleteObjects (k : Nat) (deleted : Bool)
  /-- A Weaviate attempt writes its batch. -/
  | writeObjects (k : Nat) (now : Timestamp) (landed : List Bool)
  /-- The transaction of a PostgreSQL attempt. -/
  | commit (k : Nat) (now : Timestamp)
  /-- The `UPDATE` of an attempt of `set_document_status`. -/
  | writeStatus (k : Nat) (now : Timestamp)
  /-- The result of the attempt reaches the workflow. -/
  | done (k : Nat)
  /-- A store activity fails for good. -/
  | storeFailed (target : StoreTarget) (error : String)
  /-- `set_document_status` fails for good. -/
  | statusFailed (error : String)
  | updateWorkspaceStats (result : ActivityResult Unit)
  /-- A best-effort activity other than these ends, with or without a failure. -/
  | bestEffort (result : ActivityResult Unit)
  /-- `cleanup_staging`, a late attempt of it, or the sweep of stale rows. -/
  | deleteStaging
  /-- Another attempt of the activity of attempt `k` starts. -/
  | retry (k : Nat)
  /-- Another run claims the document. -/
  | claim (c : PendingCall)

namespace IngestionSystem

/-- The run goes on to the `await`; `set_document_status` is scheduled there. -/
def goTo (s : IngestionSystem) (await : IngestionAwait) : IngestionSystem :=
  match await with
  | .setFailed error =>
    { s with await := await, attempts := s.attempts ++ [.status .failed (some error) false] }
  | _ => { s with await := await }

/-- `read_chunks`: it raises when the run has no row. -/
def readStaging (s : IngestionSystem) (k : Nat) : Option IngestionSystem :=
  match s.attempts[k]? with
  | some (.store target .started) =>
    let phase := match s.staging with
      | none => ReplacePhase.raised
      | some chunks => .read chunks
    some { s with attempts := s.attempts.set k (.store target phase) }
  | _ => none

/-- The check of `store_in_weaviate` before it deletes. -/
def checkFence (s : IngestionSystem) (k : Nat) : Option IngestionSystem :=
  match s.attempts[k]? with
  | some (.store .weaviate (.read chunks)) =>
    let phase := if isActiveRun s.input.workflowRunId s.doc then ReplacePhase.permitted chunks
      else .finished .supersededByNewerRun
    some { s with attempts := s.attempts.set k (.store .weaviate phase) }
  | _ => none

/-- `delete_document_chunks_graceful`: a failure is only logged.  Every run of this workflow
    replaces. -/
def deleteObjects (s : IngestionSystem) (k : Nat) (deleted : Bool) : Option IngestionSystem :=
  match s.attempts[k]? with
  | some (.store .weaviate (.permitted chunks)) =>
    some { s with
      objects := if deleted then .empty else s.objects
      attempts := s.attempts.set k (.store .weaviate (.deleted chunks)) }
  | _ => none

/-- The batch write of `store_in_weaviate`. -/
def writeObjects (s : IngestionSystem) (k : Nat) (now : Timestamp) (landed : List Bool) :
    Option IngestionSystem :=
  match s.attempts[k]? with
  | some (.store .weaviate (.deleted chunks)) =>
    let result := storeChunksWithTenant s.input now chunks landed s.objects
    let phase := if result.2 then
        ReplacePhase.finished { success := true, chunksStored := chunks.length }
      else .raised
    some { s with
      objects := result.1
      attempts := s.attempts.set k (.store .weaviate phase) }
  | _ => none

/-- The transaction of `store_in_postgresql`. -/
def commit (s : IngestionSystem) (k : Nat) (now : Timestamp) : Option IngestionSystem :=
  match s.attempts[k]? with
  | some (.store .postgresql (.read chunks)) =>
    let result := storeInPostgresql s.input now chunks s.doc
    some { s with
      doc := result.1
      attempts := s.attempts.set k (.store .postgresql (.finished result.2)) }
  | _ => none

/-- `set_document_status`. -/
def writeStatus (s : IngestionSystem) (k : Nat) (now : Timestamp) : Option IngestionSystem :=
  match s.attempts[k]? with
  | some (.status status errorMessage false) =>
    let call : StatusCall :=
      { now := now
        status := status
        errorMessage := errorMessage
        workflowRunId := some s.input.workflowRunId }
    some { s with
      doc := (updateDocumentStatus call s.doc).1
      attempts := s.attempts.set k (.status status errorMessage true) }
  | _ => none

/-- The result of a finished attempt resumes the workflow. -/
def done (s : IngestionSystem) (k : Nat) : Option IngestionSystem :=
  match s.attempts[k]?, s.await with
  | some (.store target (.finished output)), .store pg wv =>
    if ConversationRun.awaitsStore pg wv target then
      some (s.goTo (.afterStore pg wv target (.ok output)))
    else none
  | some (.status .failed _ true), .setFailed error => some (s.goTo (.recordDeadLetter error))
  | _, _ => none

/-- One event. -/
def step (s : IngestionSystem) : IngestionEvent → Option IngestionSystem
  | .readStaging k => s.readStaging k
  | .checkFence k => s.checkFence k
  | .deleteObjects k deleted => s.deleteObjects k deleted
  | .writeObjects k now landed => s.writeObjects k now landed
  | .commit k now => s.commit k now
  | .writeStatus k now => s.writeStatus k now
  | .done k => s.done k
  | .storeFailed target error =>
    match s.await with
    | .store pg wv =>
      if ConversationRun.awaitsStore pg wv target then
        some (s.goTo (.afterStore pg wv target (.failed error)))
      else none
    | _ => none
  | .statusFailed _ =>
    match s.await with
    | .setFailed error => some (s.goTo (.recordDeadLetter error))
    | _ => none
  | .updateWorkspaceStats result =>
    match s.await with
    | .updateWorkspaceStats => some (s.goTo (.afterStats result))
    | _ => none
  | .bestEffort _ => s.await.afterBestEffort.map s.goTo
  | .deleteStaging => some { s with staging := none }
  | .retry k =>
    match s.await, s.attempts[k]? with
    | .ended _, _ => none
    | _, some attempt => some { s with attempts := s.attempts ++ [attempt.restarted] }
    | _, none => none
  | .claim c =>
    if c.workflowRunId ≠ s.input.workflowRunId then
      some { s with doc := (createPendingDocument c s.doc).1 }
    else none

/-- The run when its two stores are scheduled.  Its first status write may still have an
    open attempt. -/
def start (input : DocumentIngestionInput) (l : IngestionLocals) (chunks : List StagedChunk)
    (doc : Option Document) (objects : ObjectTable) : IngestionSystem where
  input := input.storeInput l
  attempts := [.status .processing none false, .store .postgresql .started,
    .store .weaviate .started]
  doc := doc
  objects := objects
  staging := some chunks

end IngestionSystem

end Inherent
