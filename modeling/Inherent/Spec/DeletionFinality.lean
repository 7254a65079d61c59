import Inherent.ForStd.Run
import Inherent.Native.DocumentDeletion
import Inherent.Spec.GhostDocuments

/-!
# What is left after a deletion

The deletion takes away the row that carries the fence, and a missing row permits every write:
a claim or a commit that comes after it inserts the row again, and a batch that comes after the
delete of the vectors brings objects back.  Nothing is left exactly as long as neither happens
and the vectors are where the row says.
-/

namespace Inherent

open EventRun

/-! ## The stores without a document -/

/-- Some object of the batch is taken. -/
def lands (chunks : List StagedChunk) (landed : List Bool) : Bool :=
  (chunks.zip landed).any Prod.snd

/-- A batch of which Weaviate takes nothing changes nothing. -/
private theorem storeChunksWithTenant_of_not_lands {input : StoreDocumentInput} {now : Timestamp}
    {chunks : List StagedChunk} {landed : List Bool} {objects : ObjectTable}
    (h : lands chunks landed = false) :
    (storeChunksWithTenant input now chunks landed objects).1 = objects := by
  -- no object of the batch is written
  have hwritten : ((input.vectorObjects now chunks).zip landed).filterMap
      (fun p => if p.2 then some p.1 else none) = [] := by
    rw [List.filterMap_eq_nil_iff]
    intro p hp
    rw [StoreDocumentInput.vectorObjects, List.zip_map_left] at hp
    obtain ⟨q, hq, rfl⟩ := List.mem_map.mp hp
    have hq' : q.2 = false := by simpa using List.any_eq_false.mp h q hq
    simp [hq']
  unfold storeChunksWithTenant
  dsimp only
  rw [hwritten]
  rfl

namespace IngestionSystem

/-- Without a row, only a commit of the run or a claim brings one. -/
private theorem doc_of_step {s s' : IngestionSystem} {e : IngestionEvent} (h : s.step e = some s')
    (hcommit : ∀ k now, e ≠ .commit k now) (hclaim : ∀ c, e ≠ .claim c) (hdoc : s.doc = none) :
    s'.doc = none := by
  cases transition_of_step h with
  | committed k now => exact absurd rfl (hcommit k now)
  | claimed c => exact absurd rfl (hclaim c)
  | statusWritten k status errorMessage call =>
    show (updateDocumentStatus call s.doc).1 = none
    rw [hdoc]
    rfl
  | resumed e await => rw [goTo_doc, hdoc]
  | _ => exact hdoc

/-- Without objects, only a batch of which something is taken brings some. -/
private theorem objects_of_step {s s' : IngestionSystem} {e : IngestionEvent}
    (h : s.step e = some s')
    (hwrite : ∀ k now landed, e = .writeObjects k now landed → ∀ chunks,
      s.attempts[k]? = some (.store .weaviate (.deleted chunks)) → lands chunks landed = false)
    (hobjects : s.objects.rows = []) : s'.objects.rows = [] := by
  cases transition_of_step h with
  | objectsWritten k now landed chunks ha =>
    have hlands := hwrite k now landed rfl chunks ha
    show (storeChunksWithTenant s.input now chunks landed s.objects).1.rows = []
    rw [storeChunksWithTenant_of_not_lands hlands, hobjects]
  | objectsDeleted k deleted =>
    show (if deleted then UniqueTable.empty else s.objects).rows = []
    split
    · rfl
    · exact hobjects
  | resumed e await => rw [goTo_objects, hobjects]
  | _ => exact hobjects

end IngestionSystem

/-! ## Finality -/

/-- The vectors have been deleted. -/
def DeletionPhase.pastVectors : DeletionPhase → Bool
  | .vectorsDeleted => true
  | .returned b => b
  | _ => false

namespace DeletionSystem

/-- No row, no chunk and no object of the document is left. -/
def NothingLeft (s : DeletionSystem) : Prop :=
  s.run.doc = none ∧ s.run.objects.rows = [] ∧ s.elsewhere = []

instance (s : DeletionSystem) : Decidable s.NothingLeft := inferInstanceAs (Decidable (_ ∧ _ ∧ _))

/-- A deletion that has found its document leaves nothing of it. -/
def Final (s : DeletionSystem) : Prop := s.deletion = .returned true → s.NothingLeft

/-- No row comes after the delete of the rows, no object after that of the vectors, and these
    are all where the row says. -/
def inTime (s : DeletionSystem) : DeletionEvent → Bool
  | .claim _ _ => s.deletion ≠ .returned true
  | .run (.commit _ _) => s.deletion ≠ .returned true
  | .run (.writeObjects k _ landed) =>
    match s.run.attempts[k]? with
    | some (.store .weaviate (.deleted chunks)) => !s.deletion.pastVectors || !lands chunks landed
    | _ => true
  | .deleteVectors .ok =>
    match s.deletion with
    | .found userId =>
      (s.run.input.place = (s.workspaceId, userId) || s.run.objects.rows.isEmpty) &&
        s.elsewhere.all fun o => o.place = (s.workspaceId, userId)
    | _ => true
  | _ => true

/-- What the deletion has taken away stays away. -/
structure Gone (s : DeletionSystem) : Prop where
  doc : s.deletion = .returned true → s.run.doc = none
  objects : s.deletion.pastVectors = true → s.run.objects.rows = []
  elsewhere : s.deletion.pastVectors = true → s.elsewhere = []

/-- A step that leaves the deletion, the objects and a missing row. -/
private theorem Gone.of_same {s s' : DeletionSystem} (h : s.Gone)
    (hdeletion : s'.deletion = s.deletion) (hdoc : s.run.doc = none → s'.run.doc = none)
    (hobjects : s'.run.objects = s.run.objects) (helsewhere : s'.elsewhere = s.elsewhere) :
    s'.Gone where
  doc hret := hdoc (h.doc (hdeletion ▸ hret))
  objects hpast := by rw [hobjects, h.objects (hdeletion ▸ hpast)]
  elsewhere hpast := by rw [helsewhere, h.elsewhere (hdeletion ▸ hpast)]

/-- A step of the stores. -/
private theorem gone_run {s s' : DeletionSystem} {e : IngestionEvent} (h : s.Gone)
    (hC : s.inTime (.run e) = true) (hstep : s.step (.run e) = some s') : s'.Gone := by
  simp only [step] at hstep
  split at hstep
  · rename_i hallows
    obtain ⟨run, hrun, rfl⟩ := Option.map_eq_some_iff.mp hstep
    refine ⟨fun hret => ?_, fun hpast => ?_, h.elsewhere⟩
    · -- after the delete of the rows a commit is too late, and a claim is no event of the stores
      apply IngestionSystem.doc_of_step hrun
      · rintro k now rfl
        simp only [inTime, decide_eq_true_eq] at hC
        exact hC hret
      · rintro c rfl
        cases hallows
      · exact h.doc hret
    · -- after the delete of the vectors a batch brings no object
      apply IngestionSystem.objects_of_step hrun
      · rintro k now landed rfl chunks ha
        simp only [inTime, ha] at hC
        have hpast' : s.deletion.pastVectors = true := hpast
        simpa [hpast'] using hC
      · exact h.objects hpast
  · cases hstep

/-- The delete of the vectors, which leaves none. -/
private theorem gone_deleteVectors {s s' : DeletionSystem} {outcome : StepOutcome}
    (hC : s.inTime (.deleteVectors outcome) = true)
    (hstep : s.step (.deleteVectors outcome) = some s') : s'.Gone := by
  simp only [step] at hstep
  split at hstep
  · rename_i userId hfound
    obtain rfl := Option.some.inj hstep
    cases outcome with
    | ok =>
      simp only [inTime, hfound, Bool.and_eq_true, Bool.or_eq_true, decide_eq_true_eq,
        List.isEmpty_iff, List.all_eq_true] at hC
      refine ⟨nofun, fun _ => ?_, fun _ => ?_⟩
      · show (if s.run.input.place = (s.workspaceId, userId) then UniqueTable.empty
          else s.run.objects).rows = []
        -- the run writes where the row says, or has written nothing
        split
        · rfl
        · rename_i hplace
          exact hC.1.resolve_left hplace
      · show s.elsewhere.filter _ = []
        -- every other object is in the tenant that is emptied
        rw [List.filter_eq_nil_iff]
        intro o ho
        simp [hC.2 o ho]
    -- a deletion that raises has not come past the vectors
    | raised landed => cases landed <;> exact ⟨nofun, nofun, nofun⟩
    | crashed landed => cases landed <;> exact ⟨nofun, nofun, nofun⟩
  · cases hstep

/-- The delete of the rows. -/
private theorem gone_deleteRow {s s' : DeletionSystem} {outcome : StepOutcome} (h : s.Gone)
    (hstep : s.step (.deleteRow outcome) = some s') : s'.Gone := by
  simp only [step] at hstep
  split at hstep
  · rename_i hphase
    have hpast : s.deletion.pastVectors = true := by rw [hphase]; rfl
    obtain rfl := Option.some.inj hstep
    cases outcome with
    | ok =>
      refine ⟨fun hret => ?_, fun _ => h.objects hpast, fun _ => h.elsewhere hpast⟩
      have hfound := DeletionPhase.returned.inj hret
      show (deleteDocument s.workspaceId s.run.doc).1 = none
      -- `returned true` says that there was a row, and then it is deleted
      revert hfound
      unfold deleteDocument
      split
      · exact nofun
      · split
        · exact fun _ => rfl
        · exact nofun
    | raised landed => exact ⟨nofun, nofun, nofun⟩
    | crashed landed => exact ⟨nofun, nofun, nofun⟩
  · cases hstep

/-- One step that is in time. -/
private theorem gone_step (s : DeletionSystem) (e : DeletionEvent) (s' : DeletionSystem)
    (h : s.Gone) (hC : s.inTime e = true) (hstep : s.step e = some s') : s'.Gone := by
  cases e with
  | run e => exact gone_run h hC hstep
  | deleteVectors outcome => exact gone_deleteVectors hC hstep
  | deleteRow outcome => exact gone_deleteRow h hstep
  | claim k now =>
    simp only [step] at hstep
    split at hstep
    · obtain rfl := Option.some.inj hstep
      simp only [inTime, decide_eq_true_eq] at hC
      -- a claim that is in time comes before the delete of the rows
      exact ⟨fun hret => absurd hret hC, h.objects, h.elsewhere⟩
    · cases hstep
  | lookUp =>
    simp only [step] at hstep
    split at hstep
    · split at hstep
      · obtain rfl := Option.some.inj hstep
        exact ⟨nofun, nofun, nofun⟩
      · obtain rfl := Option.some.inj hstep
        exact ⟨nofun, nofun, nofun⟩
    · cases hstep
  | startClaim | claimed | marked | prepareFailed | scheduleStores =>
    -- neither store is touched
    simp only [step] at hstep
    split at hstep
    · obtain rfl := Option.some.inj hstep
      exact h.of_same rfl id rfl rfl
    · cases hstep

/-- In every run whose steps are all in time, a deletion that returns `found` leaves nothing of
    the document, then and ever after. -/
theorem final_of_inTime (origin : UploadRun) (workspaceId : String) (doc : Option Document)
    (objects : ObjectTable) (elsewhere : List VectorObject) (es : List DeletionEvent)
    (s : DeletionSystem) (hrun : exec step (start origin workspaceId doc objects elsewhere) es =
      some s)
    (hC : AllSteps step (fun s e => s.inTime e = true)
      (start origin workspaceId doc objects elsewhere) es) : s.Final := by
  -- before the deletion nothing is required to be gone
  have hstart : (start origin workspaceId doc objects elsewhere).Gone := ⟨nofun, nofun, nofun⟩
  have hgone := exec_invariant_of_allSteps gone_step hstart hC hrun
  intro hret
  have hpast : s.deletion.pastVectors = true := by rw [hret]; rfl
  exact ⟨hgone.doc hret, hgone.objects hpast, hgone.elsewhere hpast⟩

/-- The first upload of a document of one chunk. -/
def sampleRun : DeletionSystem :=
  start {
      messageNo := 0
      input := IngestionSystem.sampleInput
      workflowRunId := "run"
      startTime := 1 } "ws" none .empty []

/-- It claims the row and schedules its stores. -/
def untilStores : List DeletionEvent :=
  [.startClaim, .claim 0 1, .claimed, .run (.writeStatus 0 2), .marked,
    .scheduleStores (some 1) 5 0 IngestionSystem.sampleBatch]

/-- It stores the document and ends. -/
def fromStores : List DeletionEvent :=
  [.run (.readStaging 1), .run (.readStaging 2), .run (.checkFence 2), .run (.commit 1 10),
    .run (.done 1), .run (.deleteObjects 2 true), .run (.writeObjects 2 11 [true]), .run (.done 2),
    .run (.updateWorkspaceStats (.ok ())), .run (.bestEffort (.ok ())), .run (.bestEffort (.ok ())),
    .run (.bestEffort (.ok ()))]

/-- The deletion from its lookup to its end. -/
def deletes : List DeletionEvent := [.lookUp, .deleteVectors .ok, .deleteRow .ok]

theorem final_deletesAtTheEnd :
    ∃ s, exec step sampleRun (untilStores ++ fromStores ++ deletes) = some s ∧
      s.deletion = .returned true ∧ s.run.Ended ∧ s.Final := by
  obtain ⟨s, hrun⟩ := Option.isSome_iff_exists.mp
    (by decide : (exec step sampleRun (untilStores ++ fromStores ++ deletes)).isSome = true)
  have hend : ((exec step sampleRun (untilStores ++ fromStores ++ deletes)).map fun s =>
      (s.deletion, s.run.await)) = some (.returned true, .ended none) := by decide
  rw [hrun, Option.map_some, Option.some.injEq, Prod.mk.injEq] at hend
  exact ⟨s, hrun, hend.1, ⟨none, hend.2⟩, final_of_inTime _ _ _ _ _ _ s hrun (by decide)⟩

/-- The deletion comes while the stores are scheduled: both of them put the document back. -/
theorem not_final_deletesBeforeTheStores :
    ¬ ∀ (origin : UploadRun) (workspaceId : String) (doc : Option Document) (objects : ObjectTable)
      (elsewhere : List VectorObject) (es : List DeletionEvent) (s : DeletionSystem),
      exec step (start origin workspaceId doc objects elsewhere) es = some s → s.run.Ended →
        s.Final := by
  intro h
  obtain ⟨s, hrun⟩ := Option.isSome_iff_exists.mp
    (by decide : (exec step sampleRun (untilStores ++ deletes ++ fromStores)).isSome = true)
  have hend : ((exec step sampleRun (untilStores ++ deletes ++ fromStores)).map fun s =>
      (s.deletion, s.run.await, s.run.doc.isSome, s.run.objects.rows.length)) =
        some (.returned true, .ended none, true, 1) := by decide
  rw [hrun] at hend
  simp only [Option.map_some, Option.some.injEq, Prod.mk.injEq] at hend
  obtain ⟨hret, hawait, hdoc, -⟩ := hend
  have hleft := h _ _ _ _ _ _ s hrun ⟨none, hawait⟩ hret
  rw [hleft.1] at hdoc
  cases hdoc

end DeletionSystem

end Inherent
