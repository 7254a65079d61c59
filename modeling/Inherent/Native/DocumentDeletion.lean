import Inherent.Native.DocumentIngestion
import Inherent.Native.DocumentIntake

/-!
# `delete_document_everywhere` beside a run

The deletion of the public API deletes the document's vectors and then its rows.  A run of
`DocumentIngestionWorkflow` for the document has started before it: its claim, its first status
write and its preparation come here, and its stores are `IngestionSystem`.
-/

namespace Inherent

/-- Where the run is before its stores. -/
inductive RunStage where
  /-- It waits for `create_pending_document`. -/
  | claiming
  /-- It waits for the status write to `processing`. -/
  | marking
  /-- The tenant, the fetch, the extraction, the chunking and the tagging. -/
  | preparing
  /-- The stores are scheduled, or the run has failed before them. -/
  | storing
  deriving DecidableEq, Repr

/-- Where the deletion is. -/
inductive DeletionPhase where
  | idle
  /-- It has found the document, with the `user_id` of its row. -/
  | found (userId : String)
  | vectorsDeleted
  /-- `DeletionOutcome`, by its `found`. -/
  | returned (found : Bool)
  | raised
  deriving DecidableEq, Repr

/-- The run, its claim attempts (and whether each has committed), the deletion, and the objects
    of the document outside the collection and the tenant that the run writes. -/
structure DeletionSystem where
  /-- The run as the trigger has started it. -/
  origin : UploadRun
  /-- The `workspace_id` of the request. -/
  workspaceId : String
  stage : RunStage := .claiming
  claims : List Bool := []
  run : IngestionSystem
  elsewhere : List VectorObject := []
  deletion : DeletionPhase := .idle

/-- What can happen. -/
inductive DeletionEvent where
  /-- An attempt of `create_pending_document` starts. -/
  | startClaim
  /-- The `k`-th one commits; the run may have stopped waiting for it. -/
  | claim (k : Nat) (now : Timestamp)
  /-- The run goes on after the claim, whether it succeeded or not. -/
  | claimed
  /-- The run goes on after the status write. -/
  | marked
  /-- An activity before the stores fails for good. -/
  | prepareFailed (error : String)
  /-- The run schedules its stores. -/
  | scheduleStores (tenantId : Option Nat) (textLength processingTimeMs : Nat) (batch : StagedBatch)
  /-- An event of the stores. -/
  | run (e : IngestionEvent)
  /-- `get_document_upload_fields` of the deletion. -/
  | lookUp
  /-- `delete_document_vectors`. -/
  | deleteVectors (outcome : StepOutcome)
  /-- `delete_document` of the public API. -/
  | deleteRow (outcome : StepOutcome)

/-- The event is one of the run's own once it has reached its stores.  Before that only its
    status write has attempts. -/
def RunStage.allows (stage : RunStage) : IngestionEvent → Bool
  | .claim _ => false
  | .writeStatus _ _ => true
  | .retry _ => true
  | _ => stage = .storing

/-- `delete_document` of the public API: the rows after it, and whether there was one. -/
def deleteDocument (workspaceId : String) : Option Document → Option Document × Bool
  | none => (none, false)
  | some d => if d.row.workspaceId = workspaceId then (none, true) else (some d, false)

/-- The collection and the tenant of an object. -/
def VectorObject.place (o : VectorObject) : String × String := (o.workspaceId, o.userId)

/-- The collection and the tenant that a run writes to. -/
def StoreDocumentInput.place (input : StoreDocumentInput) : String × String :=
  (input.workspaceId, input.userId)

namespace DeletionSystem

/-- `delete_document_vectors` in one collection and tenant. -/
def deleteVectorsAt (s : DeletionSystem) (place : String × String) : DeletionSystem :=
  { s with
    run := { s.run with objects := if s.run.input.place = place then .empty else s.run.objects }
    elsewhere := s.elsewhere.filter fun o => o.place ≠ place }

/-- One event. -/
def step (s : DeletionSystem) : DeletionEvent → Option DeletionSystem
  | .startClaim => if s.stage = .claiming then some { s with claims := s.claims ++ [false] } else none
  | .claim k now =>
    match s.claims[k]? with
    | some false =>
      some { s with
        claims := s.claims.set k true
        run := { s.run with doc := (createPendingDocument (s.origin.pendingCall now) s.run.doc).1 } }
    | _ => none
  | .claimed =>
    if s.stage = .claiming then
      some { s with
        stage := .marking
        run := { s.run with attempts := s.run.attempts ++ [.status .processing none false] } }
    else none
  | .marked => if s.stage = .marking then some { s with stage := .preparing } else none
  | .prepareFailed error =>
    if s.stage = .preparing then
      some { s with stage := .storing, run := s.run.goTo (.setFailed error) }
    else none
  | .scheduleStores tenantId textLength processingTimeMs batch =>
    if s.stage = .preparing then
      some { s with
        stage := .storing
        run := { s.run with
          input := s.origin.input.storeInput {
            workflowRunId := s.origin.workflowRunId
            tenantId := tenantId
            textLength := textLength
            processingTimeMs := processingTimeMs }
          attempts := s.run.attempts ++ [.store .postgresql .started, .store .weaviate .started]
          staging := some batch.chunks } }
    else none
  | .run e =>
    if s.stage.allows e then (s.run.step e).map fun run => { s with run := run } else none
  | .lookUp =>
    if s.deletion = .idle then
      match s.run.doc.filter fun d => d.row.workspaceId = s.workspaceId with
      | some d => some { s with deletion := .found d.row.userId }
      | none => some { s with deletion := .returned false }
    else none
  | .deleteVectors outcome =>
    match s.deletion with
    | .found userId =>
      let deleted := if outcome.landed then s.deleteVectorsAt (s.workspaceId, userId) else s
      some { deleted with deletion := if outcome = .ok then .vectorsDeleted else .raised }
    | _ => none
  | .deleteRow outcome =>
    match s.deletion with
    | .vectorsDeleted =>
      let result := deleteDocument s.workspaceId s.run.doc
      let doc := if outcome.landed then result.1 else s.run.doc
      some { s with
        run := { s.run with doc := doc }
        deletion := if outcome = .ok then .returned result.2 else .raised }
    | _ => none

/-- The run has started and its first activity is scheduled. -/
def start (origin : UploadRun) (workspaceId : String) (doc : Option Document)
    (objects : ObjectTable) (elsewhere : List VectorObject) : DeletionSystem where
  origin := origin
  workspaceId := workspaceId
  run := {
    input := origin.input.storeInput {
      workflowRunId := origin.workflowRunId
      tenantId := none
      textLength := 0
      processingTimeMs := 0 }
    attempts := []
    doc := doc
    objects := objects
    staging := none }
  elsewhere := elsewhere

end DeletionSystem

end Inherent
