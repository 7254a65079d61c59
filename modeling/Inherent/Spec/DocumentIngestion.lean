import Inherent.ForStd.Run
import Inherent.Native.DocumentIngestion
import Inherent.Spec.Store

/-!
# What one event does to an ingestion run

`Transition` lists the events of an `IngestionSystem` with the state each leaves, and
`transition_of_step` is the inversion of `step`.  A store has been made when one of its
attempts has finished with success (`Stored`); `stored_step` says which events do that.
-/

namespace Inherent

/-! ## The batch write to Weaviate -/

/-- The object holds the staged chunk. -/
def VectorObject.HoldsChunk (o : VectorObject) (chunk : StagedChunk) : Prop :=
  o.chunkIndex = chunk.chunkIndex ∧ o.content = chunk.content ∧
    o.startChar = chunk.startChar ∧ o.endChar = chunk.endChar

instance (o : VectorObject) (chunk : StagedChunk) : Decidable (o.HoldsChunk chunk) :=
  inferInstanceAs (Decidable (_ ∧ _ ∧ _ ∧ _))

/-- Every one of the chunks has an object. -/
def HoldsObjects (objects : ObjectTable) (chunks : List StagedChunk) : Prop :=
  ∀ chunk ∈ chunks, ∃ o ∈ objects.rows, o.HoldsChunk chunk

instance (objects : ObjectTable) (chunks : List StagedChunk) :
    Decidable (HoldsObjects objects chunks) :=
  inferInstanceAs (Decidable (∀ chunk ∈ chunks, _))

/-- Some of the objects, in order, were written. -/
theorem written_sublist (batch : List VectorObject) (landed : List Bool) :
    ((batch.zip landed).filterMap fun p => if p.2 then some p.1 else none).Sublist batch := by
  induction batch generalizing landed with
  | nil => exact List.Sublist.refl []
  | cons o batch ih =>
    cases landed with
    | nil => exact List.nil_sublist _
    | cons b landed =>
      rw [List.zip_cons_cons]
      cases b with
      | false => exact (ih landed).cons o
      | true => exact (ih landed).cons_cons o

/-- An object of the batch with the index of a chunk holds the chunk. -/
private theorem holdsChunk_of_mem {input : StoreDocumentInput} {now : Timestamp}
    {batch : StagedBatch} {o : VectorObject} {chunk : StagedChunk} (hchunk : chunk ∈ batch.chunks)
    (ho : o ∈ input.vectorObjects now batch.chunks) (hindex : o.chunkIndex = chunk.chunkIndex) :
    o.HoldsChunk chunk := by
  obtain ⟨chunk', hchunk', rfl⟩ := List.mem_map.mp ho
  obtain rfl : chunk' = chunk := List.inj_on_of_nodup_map batch.indices hchunk' hchunk hindex
  exact ⟨rfl, rfl, rfl, rfl⟩

/-- A batch write of the chunks keeps the objects that hold them. -/
theorem HoldsObjects.storeChunks {objects : ObjectTable} {batch : StagedBatch}
    (h : HoldsObjects objects batch.chunks) (input : StoreDocumentInput) (now : Timestamp)
    (landed : List Bool) :
    HoldsObjects (storeChunksWithTenant input now batch.chunks landed objects).1 batch.chunks := by
  intro chunk hchunk
  obtain ⟨o, ho, hholds⟩ := h chunk hchunk
  have hkey : (storeChunksWithTenant input now batch.chunks landed objects).1.Holds
      chunk.chunkIndex ↔ _ := UniqueTable.holds_putAll
  obtain ⟨o', ho', hindex⟩ := UniqueTable.holds_iff.mp
    (hkey.mpr (Or.inl (UniqueTable.holds_iff.mpr ⟨o, ho, hholds.1⟩)))
  refine ⟨o', ho', ?_⟩
  -- the object under the index is one of the batch, or the old one where the write did not land
  rcases UniqueTable.mem_of_mem_putAll ho' with hnew | ⟨hold, -⟩
  · exact holdsChunk_of_mem hchunk ((written_sublist _ landed).subset hnew) hindex
  · rw [UniqueTable.eq_of_key_eq hold ho (hindex.trans hholds.1.symm)]
    exact hholds

/-- A batch write without failed objects leaves an object for every chunk. -/
theorem holdsObjects_of_stored {input : StoreDocumentInput} {now : Timestamp}
    {batch : StagedBatch} {landed : List Bool} {objects : ObjectTable}
    (h : (storeChunksWithTenant input now batch.chunks landed objects).2 = true) :
    HoldsObjects (storeChunksWithTenant input now batch.chunks landed objects).1 batch.chunks := by
  -- no object failed, so all of the batch was written
  have hall : ((input.vectorObjects now batch.chunks).zip landed).filterMap (fun p =>
      if p.2 then some p.1 else none) = input.vectorObjects now batch.chunks := by
    apply (written_sublist _ landed).eq_of_length
    rw [StoreDocumentInput.vectorObjects, List.length_map]
    exact of_decide_eq_true h
  intro chunk hchunk
  have hmem : chunk.chunkIndex ∈
      (input.vectorObjects now batch.chunks).map VectorObject.chunkIndex := by
    rw [StoreDocumentInput.vectorObjects, List.map_map]
    exact List.mem_map_of_mem hchunk
  simp only [storeChunksWithTenant, hall]
  obtain ⟨o, ho, hindex⟩ := UniqueTable.holds_iff.mp
    (UniqueTable.holds_putAll.mpr (Or.inr hmem) : (objects.putAll _).Holds chunk.chunkIndex)
  refine ⟨o, ho, ?_⟩
  rcases UniqueTable.mem_of_mem_putAll ho with hnew | ⟨-, hfree⟩
  · exact holdsChunk_of_mem hchunk hnew hindex
  · exact absurd (hindex ▸ hmem) hfree

/-! ## The transitions -/

/-- The chunks that the attempt holds. -/
def ReplacePhase.chunks? : ReplacePhase → Option (List StagedChunk)
  | .read chunks => some chunks
  | .permitted chunks => some chunks
  | .deleted chunks => some chunks
  | _ => none

/-- The attempt has made the store. -/
def IngestionAttempt.hasStored (target : StoreTarget) : IngestionAttempt → Bool
  | .store t (.finished output) => t = target && output.success
  | _ => false

namespace IngestionSystem

@[simp] theorem goTo_input (s : IngestionSystem) (await : IngestionAwait) :
    (s.goTo await).input = s.input := by
  cases await <;> rfl

@[simp] theorem goTo_await (s : IngestionSystem) (await : IngestionAwait) :
    (s.goTo await).await = await := by
  cases await <;> rfl

@[simp] theorem goTo_doc (s : IngestionSystem) (await : IngestionAwait) :
    (s.goTo await).doc = s.doc := by
  cases await <;> rfl

@[simp] theorem goTo_objects (s : IngestionSystem) (await : IngestionAwait) :
    (s.goTo await).objects = s.objects := by
  cases await <;> rfl

@[simp] theorem goTo_staging (s : IngestionSystem) (await : IngestionAwait) :
    (s.goTo await).staging = s.staging := by
  cases await <;> rfl

/-- Going on schedules at most an attempt of `set_document_status`. -/
theorem goTo_attempts (s : IngestionSystem) (await : IngestionAwait) :
    (s.goTo await).attempts = s.attempts ∨ ∃ error, await = .setFailed error ∧
      (s.goTo await).attempts = s.attempts ++ [.status .failed (some error) false] := by
  cases await with
  | setFailed error => exact Or.inr ⟨error, rfl, rfl⟩
  | _ => exact Or.inl rfl

/-- `s.Resumes e await`: the event `e` resumes the workflow, which goes on to `await`. -/
inductive Resumes (s : IngestionSystem) : IngestionEvent → IngestionAwait → Prop where
  | storeDone (k : Nat) (target : StoreTarget) (output : StoreDocumentOutput)
      (pg wv : Option StoreDocumentOutput)
      (ha : s.attempts[k]? = some (.store target (.finished output)))
      (hs : s.await = .store pg wv) :
      Resumes s (.done k) (.afterStore pg wv target (.ok output))
  | statusDone (k : Nat) (errorMessage : Option String) (error : String)
      (ha : s.attempts[k]? = some (.status .failed errorMessage true))
      (hs : s.await = .setFailed error) : Resumes s (.done k) (.recordDeadLetter error)
  | storeFailed (target : StoreTarget) (error : String) (pg wv : Option StoreDocumentOutput)
      (hs : s.await = .store pg wv) : Resumes s (.storeFailed target error) (.setFailed error)
  | statusFailed (e error : String) (hs : s.await = .setFailed error) :
      Resumes s (.statusFailed e) (.recordDeadLetter error)
  | statsUpdated (result : ActivityResult Unit) (hs : s.await = .updateWorkspaceStats) :
      Resumes s (.updateWorkspaceStats result) (.afterStats result)
  | bestEffort (result : ActivityResult Unit) (await : IngestionAwait)
      (h : s.await.afterBestEffort = some await) : Resumes s (.bestEffort result) await

/-- `s.Transition e s'`: the event `e` can happen in `s` and leaves `s'`. -/
inductive Transition (s : IngestionSystem) : IngestionEvent → IngestionSystem → Prop where
  | stagingRead (k : Nat) (target : StoreTarget) (phase : ReplacePhase)
      (ha : s.attempts[k]? = some (.store target .started))
      (hphase : phase = .raised ∨ ∃ chunks, s.staging = some chunks ∧ phase = .read chunks) :
      Transition s (.readStaging k)
        { s with attempts := s.attempts.set k (.store target phase) }
  | fenceChecked (k : Nat) (chunks : List StagedChunk) (phase : ReplacePhase)
      (ha : s.attempts[k]? = some (.store .weaviate (.read chunks)))
      (hphase : phase = .permitted chunks ∨ phase = .finished .supersededByNewerRun) :
      Transition s (.checkFence k)
        { s with attempts := s.attempts.set k (.store .weaviate phase) }
  | objectsDeleted (k : Nat) (deleted : Bool) (chunks : List StagedChunk)
      (ha : s.attempts[k]? = some (.store .weaviate (.permitted chunks))) :
      Transition s (.deleteObjects k deleted) { s with
        objects := if deleted then .empty else s.objects
        attempts := s.attempts.set k (.store .weaviate (.deleted chunks)) }
  | objectsWritten (k : Nat) (now : Timestamp) (landed : List Bool) (chunks : List StagedChunk)
      (ha : s.attempts[k]? = some (.store .weaviate (.deleted chunks))) :
      Transition s (.writeObjects k now landed) { s with
        objects := (storeChunksWithTenant s.input now chunks landed s.objects).1
        attempts := s.attempts.set k (.store .weaviate
          (if (storeChunksWithTenant s.input now chunks landed s.objects).2 then
            .finished { success := true, chunksStored := chunks.length } else .raised)) }
  | committed (k : Nat) (now : Timestamp) (chunks : List StagedChunk)
      (ha : s.attempts[k]? = some (.store .postgresql (.read chunks))) :
      Transition s (.commit k now) { s with
        doc := (storeInPostgresql s.input now chunks s.doc).1
        attempts := s.attempts.set k (.store .postgresql
          (.finished (storeInPostgresql s.input now chunks s.doc).2)) }
  | statusWritten (k : Nat) (status : DocumentStatus) (errorMessage : Option String)
      (call : StatusCall) (ha : s.attempts[k]? = some (.status status errorMessage false))
      (hstatus : call.status = status)
      (hcall : call.workflowRunId = some s.input.workflowRunId) :
      Transition s (.writeStatus k call.now) { s with
        doc := (updateDocumentStatus call s.doc).1
        attempts := s.attempts.set k (.status status errorMessage true) }
  | resumed (e : IngestionEvent) (await : IngestionAwait) (h : s.Resumes e await) :
      Transition s e (s.goTo await)
  | stagingDeleted : Transition s .deleteStaging { s with staging := none }
  | retried (k : Nat) (attempt : IngestionAttempt) (ha : s.attempts[k]? = some attempt) :
      Transition s (.retry k) { s with attempts := s.attempts ++ [attempt.restarted] }
  | claimed (c : PendingCall) (hc : c.workflowRunId ≠ s.input.workflowRunId) :
      Transition s (.claim c) { s with doc := (createPendingDocument c s.doc).1 }

/-- Every step is one of the transitions. -/
theorem transition_of_step {s s' : IngestionSystem} {e : IngestionEvent}
    (h : s.step e = some s') : s.Transition e s' := by
  cases e with
  | readStaging k =>
    simp only [step, readStaging] at h
    split at h
    · rename_i target ha
      obtain rfl := Option.some.inj h
      refine .stagingRead k target _ ha ?_
      cases hrow : s.staging with
      | none => exact Or.inl rfl
      | some chunks => exact Or.inr ⟨chunks, rfl, rfl⟩
    · exact nomatch h
  | checkFence k =>
    simp only [step, checkFence] at h
    split at h
    · rename_i chunks ha
      obtain rfl := Option.some.inj h
      refine .fenceChecked k chunks _ ha ?_
      split
      · exact Or.inl rfl
      · exact Or.inr rfl
    · exact nomatch h
  | deleteObjects k deleted =>
    simp only [step, deleteObjects] at h
    split at h
    · rename_i chunks ha
      obtain rfl := Option.some.inj h
      exact .objectsDeleted k deleted chunks ha
    · exact nomatch h
  | writeObjects k now landed =>
    simp only [step, writeObjects] at h
    split at h
    · rename_i chunks ha
      obtain rfl := Option.some.inj h
      exact .objectsWritten k now landed chunks ha
    · exact nomatch h
  | commit k now =>
    simp only [step, commit] at h
    split at h
    · rename_i chunks ha
      obtain rfl := Option.some.inj h
      exact .committed k now chunks ha
    · exact nomatch h
  | writeStatus k now =>
    simp only [step, writeStatus] at h
    split at h
    · rename_i status errorMessage ha
      obtain rfl := Option.some.inj h
      exact .statusWritten k status errorMessage
        ⟨now, status, errorMessage, some s.input.workflowRunId⟩ ha rfl rfl
    · exact nomatch h
  | done k =>
    simp only [step, done] at h
    split at h
    · -- the workflow awaits a store, or the write of a status
      rename_i target output pg wv ha hs
      split at h
      · obtain rfl := Option.some.inj h
        exact .resumed _ _ (.storeDone k target output pg wv ha hs)
      · exact nomatch h
    · rename_i errorMessage error ha hs
      obtain rfl := Option.some.inj h
      exact .resumed _ _ (.statusDone k errorMessage error ha hs)
    · exact nomatch h
  | storeFailed target error =>
    simp only [step] at h
    split at h
    · rename_i pg wv hs
      split at h
      · obtain rfl := Option.some.inj h
        exact .resumed _ _ (.storeFailed target error pg wv hs)
      · exact nomatch h
    · exact nomatch h
  | statusFailed e =>
    simp only [step] at h
    split at h
    · rename_i error hs
      obtain rfl := Option.some.inj h
      exact .resumed _ _ (.statusFailed e error hs)
    · exact nomatch h
  | updateWorkspaceStats result =>
    simp only [step] at h
    split at h
    · rename_i hs
      obtain rfl := Option.some.inj h
      exact .resumed _ _ (.statsUpdated result hs)
    · exact nomatch h
  | bestEffort result =>
    obtain ⟨await, hawait, rfl⟩ := Option.map_eq_some_iff.mp h
    exact .resumed _ _ (.bestEffort result await hawait)
  | deleteStaging =>
    obtain rfl := Option.some.inj h
    exact .stagingDeleted
  | retry k =>
    simp only [step] at h
    split at h
    · exact nomatch h
    · rename_i attempt ha _
      obtain rfl := Option.some.inj h
      exact .retried k attempt ha
    · exact nomatch h
  | claim c =>
    simp only [step] at h
    split at h
    · rename_i hc
      obtain rfl := Option.some.inj h
      exact .claimed c hc
    · exact nomatch h

/-! ## The stores that have been made -/

/-- An attempt of the run has made the store. -/
def Stored (s : IngestionSystem) (target : StoreTarget) : Prop :=
  ∃ a ∈ s.attempts, a.hasStored target = true

instance (s : IngestionSystem) (target : StoreTarget) : Decidable (s.Stored target) :=
  inferInstanceAs (Decidable (∃ a ∈ s.attempts, _))

/-- An attempt that goes on makes a store only if it has made it then. -/
private theorem exists_hasStored_set {attempts : List IngestionAttempt} {k : Nat}
    {a : IngestionAttempt} (a' : IngestionAttempt) (target : StoreTarget)
    (ha : attempts[k]? = some a) (hnot : a.hasStored target = false) :
    (∃ x ∈ attempts.set k a', x.hasStored target = true) ↔
      (∃ x ∈ attempts, x.hasStored target = true) ∨ a'.hasStored target = true := by
  have hk := (List.getElem?_eq_some_iff.mp ha).1
  constructor
  · rintro ⟨x, hx, hstored⟩
    rcases List.mem_or_eq_of_mem_set hx with hx | rfl
    · exact Or.inl ⟨x, hx, hstored⟩
    · exact Or.inr hstored
  · rintro (⟨x, hx, hstored⟩ | hstored)
    · obtain ⟨i, hi⟩ := List.getElem?_of_mem hx
      -- the attempt that goes on had not stored, so this is another one
      have hne : k ≠ i := by
        rintro rfl
        rw [ha] at hi
        obtain rfl := Option.some.inj hi
        exact absurd hstored (by rw [hnot]; exact Bool.false_ne_true)
      refine ⟨x, List.mem_of_getElem? (i := i) ?_, hstored⟩
      rw [List.getElem?_set_ne hne]
      exact hi
    · exact ⟨a', List.mem_set hk a', hstored⟩

/-- A new attempt has made no store. -/
private theorem exists_hasStored_append {attempts : List IngestionAttempt} {a : IngestionAttempt}
    {target : StoreTarget} (hnot : a.hasStored target = false) :
    (∃ x ∈ attempts ++ [a], x.hasStored target = true) ↔
      ∃ x ∈ attempts, x.hasStored target = true := by
  constructor
  · rintro ⟨x, hx, hstored⟩
    rcases List.mem_append.mp hx with hx | hx
    · exact ⟨x, hx, hstored⟩
    · rw [List.mem_singleton.mp hx, hnot] at hstored
      exact nomatch hstored
  · rintro ⟨x, hx, hstored⟩
    exact ⟨x, List.mem_append_left _ hx, hstored⟩

@[simp] theorem stored_goTo {s : IngestionSystem} {await : IngestionAwait} {target : StoreTarget} :
    (s.goTo await).Stored target ↔ s.Stored target := by
  unfold Stored
  rcases s.goTo_attempts await with h | ⟨error, -, h⟩
  · rw [h]
  · rw [h]
    exact exists_hasStored_append rfl

/-- A store is made by a commit whose fence passes, and by a batch write without failed
    objects; no event takes it back. -/
theorem stored_step {s s' : IngestionSystem} {e : IngestionEvent} {target : StoreTarget}
    (hstep : s.Transition e s') :
    s'.Stored target ↔ s.Stored target ∨
      (target = .postgresql ∧ ∃ k now chunks, e = .commit k now ∧
        s.attempts[k]? = some (.store .postgresql (.read chunks)) ∧
        (storeInPostgresql s.input now chunks s.doc).2.success = true) ∨
      (target = .weaviate ∧ ∃ k now landed chunks, e = .writeObjects k now landed ∧
        s.attempts[k]? = some (.store .weaviate (.deleted chunks)) ∧
        (storeChunksWithTenant s.input now chunks landed s.objects).2 = true) := by
  cases hstep with
  | stagingRead k t phase ha hphase =>
    have hnot : (IngestionAttempt.store t phase).hasStored target = false := by
      rcases hphase with rfl | ⟨chunks, -, rfl⟩ <;> rfl
    simp [Stored, exists_hasStored_set _ target ha rfl, hnot]
  | fenceChecked k chunks phase ha hphase =>
    -- an attempt that the fence refuses returns without success
    have hnot : (IngestionAttempt.store .weaviate phase).hasStored target = false := by
      rcases hphase with rfl | rfl
      · rfl
      · simp [IngestionAttempt.hasStored, StoreDocumentOutput.supersededByNewerRun]
    simp [Stored, exists_hasStored_set _ target ha rfl, hnot]
  | objectsDeleted k deleted chunks ha =>
    have hnot : (IngestionAttempt.store .weaviate (.deleted chunks)).hasStored target = false := rfl
    simp [Stored, exists_hasStored_set _ target ha rfl, hnot]
  | objectsWritten k now landed chunks ha =>
    have hset := exists_hasStored_set (.store .weaviate
      (if (storeChunksWithTenant s.input now chunks landed s.objects).2 then
        .finished { success := true, chunksStored := chunks.length } else .raised)) target ha rfl
    refine hset.trans (or_congr_right ?_)
    cases target with
    | postgresql => split <;> simp [IngestionAttempt.hasStored]
    | weaviate => split <;> simp_all [IngestionAttempt.hasStored]
  | committed k now chunks ha =>
    have hset := exists_hasStored_set (.store .postgresql
      (.finished (storeInPostgresql s.input now chunks s.doc).2)) target ha rfl
    refine hset.trans (or_congr_right ?_)
    cases target with
    | postgresql => simp_all [IngestionAttempt.hasStored]
    | weaviate => simp [IngestionAttempt.hasStored]
  | statusWritten k status errorMessage call ha hstatus hcall =>
    have hnot : (IngestionAttempt.status status errorMessage true).hasStored target = false := rfl
    simp [Stored, exists_hasStored_set _ target ha rfl, hnot]
  | resumed e await h => cases h <;> simp
  | stagingDeleted => simp [Stored]
  | retried k attempt ha =>
    have hnot : attempt.restarted.hasStored target = false := by
      cases attempt <;> rfl
    refine (exists_hasStored_append hnot).trans ?_
    simp [Stored]
  | claimed c hc => simp [Stored]

theorem Stored.step {s s' : IngestionSystem} {e : IngestionEvent} {target : StoreTarget}
    (h : s.Stored target) (hstep : s.Transition e s') : s'.Stored target :=
  (stored_step hstep).mpr (Or.inl h)

end IngestionSystem

end Inherent
