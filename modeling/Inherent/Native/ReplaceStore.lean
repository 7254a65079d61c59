import Inherent.Native.DocumentIngestion

/-!
# The attempts of `store_in_weaviate`

The activity of a run that replaces the objects of its document
(`src/services/inh-ingestion-svc/src/temporal/activities/store.py`).  All its attempts
store the chunks that the run has staged, and an attempt that was given up may still go on
next to its retry.  A delete reports no failure to the activity
(`delete_document_chunks_graceful`), and may have taken some of the objects only.
-/

namespace Inherent

/-- How far an attempt is. -/
inductive ReplaceAttempt where
  | started
  /-- It has read the chunks from staging. -/
  | read
  /-- It has passed `is_active_run`. -/
  | permitted
  /-- It is past its delete. -/
  | deleted
  | returned (output : StoreDocumentOutput)
  | raised
  deriving DecidableEq, Repr

/-- The activity, its attempts and the objects of the document. -/
structure ReplaceSystem where
  input : StoreDocumentInput
  batch : StagedBatch
  objects : ObjectTable
  attempts : List ReplaceAttempt
  /-- The chunk indices whose objects some delete has taken. -/
  removed : List Nat

/-- What can happen; `k` is the number of an attempt. -/
inductive ReplaceEvent where
  /-- The first attempt, or another one, starts. -/
  | attempt
  /-- `read_chunks`, and the check that Weaviate is connected: it raises without them. -/
  | readStaging (k : Nat) (found : Bool)
  /-- `is_active_run`. -/
  | checkFence (k : Nat) (active : Bool)
  /-- `delete_document_chunks_graceful`: the indices whose objects it takes, none when
      Weaviate is not ready. -/
  | deleteObjects (k : Nat) (indices : List Nat)
  /-- `store_chunks_with_tenant`: which objects Weaviate takes, and whether an error other
      than theirs is raised. -/
  | writeObjects (k : Nat) (now : Timestamp) (landed : List Bool) (error : Bool)
  deriving DecidableEq, Repr

namespace ReplaceSystem

/-- The attempt writes next: `append` skips the delete. -/
def Writes (s : ReplaceSystem) (k : Nat) : Prop :=
  s.attempts[k]? = some (if s.input.append then .permitted else .deleted)

instance (s : ReplaceSystem) (k : Nat) : Decidable (s.Writes k) :=
  inferInstanceAs (Decidable (_ = _))

/-- The output of an attempt that returns in this step. -/
def output? (s : ReplaceSystem) : ReplaceEvent → Option StoreDocumentOutput
  | .checkFence _ active => if active then none else some .supersededByNewerRun
  | .writeObjects _ now landed error =>
    let result := storeChunksWithTenant s.input now s.batch.chunks landed s.objects
    if result.2 && !error then some { success := true, chunksStored := s.batch.chunks.length }
    else none
  | _ => none

/-- One event. -/
def step (s : ReplaceSystem) (e : ReplaceEvent) : Option ReplaceSystem :=
  match e with
  | .attempt => some { s with attempts := s.attempts ++ [.started] }
  | .readStaging k found =>
    if s.attempts[k]? = some .started then
      some { s with attempts := s.attempts.set k (if found then .read else .raised) }
    else none
  | .checkFence k _ =>
    if s.attempts[k]? = some .read then
      let phase := match s.output? e with
        | some output => ReplaceAttempt.returned output
        | none => .permitted
      some { s with attempts := s.attempts.set k phase }
    else none
  | .deleteObjects k indices =>
    if s.attempts[k]? = some .permitted ∧ s.input.append = false then
      some { s with
        objects := s.objects.filter fun o => o.chunkIndex ∉ indices
        attempts := s.attempts.set k .deleted
        removed := s.removed ++ indices }
    else none
  | .writeObjects k now landed _ =>
    if s.Writes k then
      let phase := match s.output? e with
        | some output => ReplaceAttempt.returned output
        | none => .raised
      some { s with
        objects := (storeChunksWithTenant s.input now s.batch.chunks landed s.objects).1
        attempts := s.attempts.set k phase }
    else none

/-- The activity when it is scheduled. -/
def start (input : StoreDocumentInput) (batch : StagedBatch) (objects : ObjectTable) :
    ReplaceSystem where
  input := input
  batch := batch
  objects := objects
  attempts := []
  removed := []

/-- An attempt that replaces returns with success in this step. -/
def ReturnsSuccess (s : ReplaceSystem) (e : ReplaceEvent) : Prop :=
  s.input.append = false ∧ ∃ output ∈ s.output? e, output.success = true

instance (s : ReplaceSystem) (e : ReplaceEvent) : Decidable (s.ReturnsSuccess e) :=
  inferInstanceAs (Decidable (_ ∧ ∃ output ∈ s.output? e, output.success = true))

end ReplaceSystem

end Inherent
