import Inherent.ForStd.Run
import Inherent.Native.WorkspaceHistory
import Inherent.Spec.FlushStats
import Inherent.Spec.GhostDocuments
import Inherent.Spec.Store

/-!
# Whether the counters track the documents

Each run counts its document once, whether the document is new or not, and a deletion takes it
away once.  So the counters track the documents exactly when no operation of the history has
ingested a document that was there.
-/

namespace Inherent

open EventRun

/-! ## What an ingestion stores -/

/-- The document, if there is one, has the id. -/
def HasId (documentId : String) (doc : Option Document) : Prop :=
  ∀ d ∈ doc, d.documentId = documentId

private theorem hasId_reset {documentId : String} {doc : Option Document} {call : ResetCall}
    (h : HasId documentId doc) (hcall : call.documentId = documentId) :
    HasId documentId (some (createOrResetPendingDocument call doc)) := by
  intro d hd
  obtain rfl := Option.some.inj hd
  cases doc with
  | none => exact hcall
  | some d => exact h d rfl

private theorem hasId_claim {documentId : String} {doc : Option Document} {call : PendingCall}
    (h : HasId documentId doc) (hcall : call.documentId = documentId) :
    HasId documentId (createPendingDocument call doc).1 := by
  intro d hd
  cases doc with
  | none =>
    obtain rfl := Option.some.inj hd
    show (call.claim call.insertValues).documentId = documentId
    unfold PendingCall.claim
    split <;> exact hcall
  | some d' =>
    obtain rfl := Option.some.inj hd
    show (call.claim d'.row).documentId = documentId
    unfold PendingCall.claim
    split <;> exact h d' rfl

private theorem hasId_status {documentId : String} {doc : Option Document} {call : StatusCall}
    (h : HasId documentId doc) : HasId documentId (updateDocumentStatus call doc).1 := by
  intro d hd
  cases doc with
  | none => cases hd
  | some d' =>
    simp only [updateDocumentStatus] at hd
    split at hd
    · obtain rfl := Option.some.inj hd
      exact h d' rfl
    · exact h d hd

namespace Ingestion

/-- The document that comes to the stores is the one of the ingestion. -/
private theorem hasId_prepare {i : Ingestion} {workspaceId : String} {doc : Option Document}
    (hof : i.isOf workspaceId = true) (h : HasId i.documentId doc) :
    HasId i.documentId (i.prepare doc) := by
  unfold prepare
  apply hasId_status
  apply hasId_claim
  · simp only [isOf, Bool.and_eq_true] at hof
    cases hreset : i.reset with
    | none => exact h
    | some call =>
      refine hasId_reset h ?_
      rw [hreset, Option.all_some, Bool.and_eq_true] at hof
      exact of_decide_eq_true hof.2.2
  · rfl

/-- The ingestion has stored the document. -/
structure Stored (i : Ingestion) (d : Document) : Prop where
  documentId : d.documentId = i.documentId
  status : d.row.status = .processed
  chunkCount : d.row.chunkCount = i.batch.chunks.length
  chunks : d.chunks.size = i.batch.chunks.length

/-- A store that succeeds has stored it. -/
theorem stored_of_success {i : Ingestion} {workspaceId : String} {doc : Option Document}
    {d : Document} {output : StoreDocumentOutput} (hof : i.isOf workspaceId = true)
    (hid : HasId i.documentId doc) (h : i.store doc = (some d, output))
    (hsuccess : output.success = true) : i.Stored d := by
  have hprepared := hasId_prepare hof hid
  unfold store at h
  by_cases hactive : isActiveRun i.storeInput.workflowRunId (i.prepare doc)
  · rw [storeInPostgresql_of_isActiveRun _ _ _ _ hactive] at h
    obtain ⟨hd, -⟩ := Prod.mk.inj h
    obtain rfl := Option.some.inj hd
    -- the call replaces the document
    have happ : (i.storeInput.storeCall i.storedAt i.batch.chunks).append = false := rfl
    have hlength : (i.storeInput.storeCall i.storedAt i.batch.chunks).chunks.length =
        i.batch.chunks.length := List.length_map ..
    have hindices : ((i.storeInput.storeCall i.storedAt i.batch.chunks).chunkValues.map
        ChunkRow.chunkIndex).Nodup := by
      rw [StoreCall.chunkValues_chunkIndex]
      simp only [StoreDocumentInput.storeCall, List.map_map]
      exact i.batch.indices
    refine ⟨?_, ?_, ?_, ?_⟩
    · rw [Document.documentId, StoreCall.writeChunks_row_of_not_append _ _ _ happ]
      cases hdoc : i.prepare doc with
      | none => rfl
      | some d' => exact hprepared d' hdoc
    · rw [StoreCall.writeChunks_status, StoreCall.upsert_status]
    · rw [StoreCall.writeChunks_row_of_not_append _ _ _ happ,
        StoreCall.upsert_chunkCount_of_not_append _ _ happ, hlength]
    · rw [UniqueTable.size, StoreCall.writeChunks_rows_of_not_append _ _ _ happ hindices,
        StoreCall.length_chunkValues, hlength]
  · rw [storeInPostgresql_of_not_isActiveRun _ _ _ _ hactive] at h
    -- a fenced store reports a failure
    obtain ⟨-, rfl⟩ := Prod.mk.inj h
    cases hsuccess

end Ingestion

namespace Workspace

/-! ## What an operation does to the counters -/

/-- The number of processed documents. -/
def processedDocuments (s : Workspace) : Nat :=
  s.documents.rows.countP fun d => d.row.status = .processed

/-- The number of their chunk rows. -/
def chunkRows (s : Workspace) : Nat := s.documents.total fun d => d.chunks.size

/-- The counters are the numbers of documents and of chunk rows. -/
def CountersAgree (s : Workspace) : Prop :=
  ∃ m ∈ s.tables.metadata, m.documentCount = s.processedDocuments ∧ m.chunkCount = s.chunkRows

/-- The operation does not ingest a document that is there. -/
def isFirst (s : Workspace) : WorkspaceEvent → Bool
  | .ingest i => (s.documents.find? i.documentId).isNone
  | .delete _ => true

/-- The document that an operation ingests again. -/
def again (s : Workspace) (e : WorkspaceEvent) : List String :=
  match e with
  | .ingest i => if s.isFirst e then [] else [i.documentId]
  | .delete _ => []

private theorem again_eq_nil_iff {s : Workspace} {e : WorkspaceEvent} :
    s.again e = [] ↔ s.isFirst e = true := by
  cases e with
  | ingest i =>
    unfold again
    dsimp only
    split <;> simp_all
  | delete documentId => exact iff_of_true rfl rfl

/-- What an ingestion that completes leaves. -/
structure Ingested (s : Workspace) (i : Ingestion) (s' : Workspace) (d : Document) : Prop where
  stored : i.Stored d
  documents : s'.documents = s.documents.put d
  metadata : s'.tables.metadata = s.tables.metadata.map (·.add i.statsInput)

private theorem ingested_of_step {s s' : Workspace} {i : Ingestion}
    (h : s.step (.ingest i) = some s') : ∃ d, s.Ingested i s' d := by
  simp only [step] at h
  split at h
  · rename_i hguard
    have hid : HasId i.documentId (s.documents.find? i.documentId) :=
      fun d hd => (UniqueTable.find?_eq_some.mp hd).2
    split at h
    · rename_i d output hstore
      split at h
      · rename_i hsuccess
        obtain rfl := Option.some.inj h
        exact ⟨d, Ingestion.stored_of_success hguard.1 hid hstore hsuccess, rfl,
          (updateWorkspaceStats_of_not_holds rfl hguard.2).1⟩
      · cases h
    · cases h
  · cases h

/-- What a deletion takes away. -/
private theorem deleted_of_step {s s' : Workspace} {documentId : String}
    (h : s.step (.delete documentId) = some s') :
    ∃ d, s.documents.find? documentId = some d ∧ s'.documents = s.documents.erase documentId ∧
      s'.tables.metadata = s.tables.metadata.map fun m =>
        m.removeDocument d.row.chunkCount d.row.sizeBytes := by
  simp only [step] at h
  split at h
  · rename_i d hfind
    split at h
    · obtain rfl := Option.some.inj h
      exact ⟨d, hfind, rfl, rfl⟩
    · cases h
  · cases h

/-- `document_count` exceeds the number of rows by `n`. -/
def Drifted (s : Workspace) (n : Nat) : Prop :=
  ∃ m ∈ s.tables.metadata, m.documentCount = s.documents.size + n

/-- The number of rows is a total. -/
private theorem size_eq_total (s : Workspace) : s.documents.size = s.documents.total fun _ => 1 := by
  simp [UniqueTable.size, UniqueTable.total]

private theorem drifted_step {s s' : Workspace} {e : WorkspaceEvent} {n : Nat} (h : s.Drifted n)
    (hstep : s.step e = some s') : s'.Drifted (n + (s.again e).length) := by
  obtain ⟨m, hm, hcount⟩ := h
  cases e with
  | ingest i =>
    obtain ⟨d, hing⟩ := ingested_of_step hstep
    refine ⟨m.add i.statsInput, ?_, ?_⟩
    · rw [hing.metadata, Option.mem_def.mp hm]
      rfl
    · have hsize := s.documents.total_put d fun _ => 1
      rw [← hing.documents, ← size_eq_total, ← size_eq_total, hing.stored.documentId] at hsize
      have hadd : (m.add i.statsInput).documentCount = m.documentCount + 1 := by
        simp only [WorkspaceMetadata.add, Ingestion.statsInput]
        omega
      rw [hadd, hcount]
      unfold again isFirst
      dsimp only
      split
      · -- a new row, and one more document in the counter
        rename_i hnone
        rw [Option.isNone_iff_eq_none.mp hnone, Option.map_none, Option.getD_none] at hsize
        show s.documents.size + n + 1 = s'.documents.size + (n + 0)
        omega
      · -- the row is replaced, but the counter grows all the same
        rename_i hsome
        obtain ⟨d', hfind⟩ := Option.ne_none_iff_exists'.mp
          fun hnone => hsome (Option.isNone_iff_eq_none.mpr hnone)
        rw [hfind, Option.map_some, Option.getD_some] at hsize
        show s.documents.size + n + 1 = s'.documents.size + (n + 1)
        omega
  | delete documentId =>
    obtain ⟨d, hfind, hdocuments, hmetadata⟩ := deleted_of_step hstep
    refine ⟨m.removeDocument d.row.chunkCount d.row.sizeBytes, ?_, ?_⟩
    · rw [hmetadata, Option.mem_def.mp hm]
      rfl
    · -- the row was there, so the counter is above zero
      have hsize := s.documents.total_erase documentId fun _ => 1
      rw [← hdocuments, ← size_eq_total, ← size_eq_total, hfind, Option.map_some,
        Option.getD_some] at hsize
      show m.documentCount - 1 = s'.documents.size + (n + 0)
      omega

/-- So `document_count` exceeds the number of rows by the ingestions of documents that were
    there. -/
private theorem drifted_run {s s' : Workspace} {es : List WorkspaceEvent} {n : Nat}
    (h : s.Drifted n) (hrun : exec step s es = some s') :
    s'.Drifted (n + (collect step again s es).length) := by
  induction es generalizing s n with
  | nil =>
    simp only [exec_nil, Option.some.injEq] at hrun
    exact hrun ▸ h
  | cons e es ih =>
    obtain ⟨t, ht, hrest⟩ := exec_cons_eq_some.mp hrun
    -- what is left of the history drifts on from where the first event has left it
    have hlater := ih (drifted_step h ht) hrest
    rw [collect_cons ht, List.length_append]
    rwa [Nat.add_assoc] at hlater

/-- Every document of the workspace is processed. -/
def AllProcessed (s : Workspace) : Prop := ∀ d ∈ s.documents.rows, d.row.status = .processed

private theorem allProcessed_step (s : Workspace) (e : WorkspaceEvent) (s' : Workspace)
    (h : s.AllProcessed) (hstep : s.step e = some s') : s'.AllProcessed := by
  cases e with
  | ingest i =>
    obtain ⟨d, hing⟩ := ingested_of_step hstep
    intro d' hd'
    rw [hing.documents] at hd'
    rcases UniqueTable.mem_put.mp hd' with rfl | ⟨hold, -⟩
    · exact hing.stored.status
    · exact h d' hold
  | delete documentId =>
    obtain ⟨d, -, hdocuments, -⟩ := deleted_of_step hstep
    intro d' hd'
    rw [hdocuments] at hd'
    exact h d' (UniqueTable.mem_erase.mp hd').1

/-- Then the rows are counted as they are. -/
private theorem processedDocuments_eq_size {s : Workspace} (h : s.AllProcessed) :
    s.processedDocuments = s.documents.size :=
  List.countP_eq_length.mpr fun d hd => decide_eq_true (h d hd)

/-- Every row counts its chunk rows, and the workspace counts those of all documents. -/
structure ChunksCounted (s : Workspace) : Prop where
  rows : ∀ d ∈ s.documents.rows, d.row.chunkCount = d.chunks.size
  total : ∃ m ∈ s.tables.metadata, m.chunkCount = s.chunkRows

private theorem chunksCounted_step (s : Workspace) (e : WorkspaceEvent) (s' : Workspace)
    (h : s.ChunksCounted) (hC : s.isFirst e = true) (hstep : s.step e = some s') :
    s'.ChunksCounted := by
  obtain ⟨hrows, m, hm, hcount⟩ := h
  cases e with
  | ingest i =>
    obtain ⟨d, hing⟩ := ingested_of_step hstep
    constructor
    · intro d' hd'
      rw [hing.documents] at hd'
      rcases UniqueTable.mem_put.mp hd' with rfl | ⟨hold, -⟩
      · exact hing.stored.chunkCount.trans hing.stored.chunks.symm
      · exact hrows d' hold
    · refine ⟨m.add i.statsInput, ?_, ?_⟩
      · rw [hing.metadata, Option.mem_def.mp hm]
        rfl
      · have htotal := s.documents.total_put d fun d => d.chunks.size
        -- there is no old row whose chunks would be taken from the total
        have hnone : s.documents.find? i.documentId = none := Option.isNone_iff_eq_none.mp hC
        rw [← hing.documents, hing.stored.documentId, hnone, hing.stored.chunks] at htotal
        have hadd : (m.add i.statsInput).chunkCount = m.chunkCount + i.batch.chunks.length := by
          simp only [WorkspaceMetadata.add, Ingestion.statsInput]
          omega
        rw [hadd, hcount]
        exact htotal.symm
  | delete documentId =>
    obtain ⟨d, hfind, hdocuments, hmetadata⟩ := deleted_of_step hstep
    constructor
    · intro d' hd'
      rw [hdocuments] at hd'
      exact hrows d' (UniqueTable.mem_erase.mp hd').1
    · refine ⟨m.removeDocument d.row.chunkCount d.row.sizeBytes, ?_, ?_⟩
      · rw [hmetadata, Option.mem_def.mp hm]
        rfl
      · have htotal := s.documents.total_erase documentId fun d => d.chunks.size
        rw [← hdocuments, hfind, Option.map_some, Option.getD_some] at htotal
        -- the row counts its own chunks, and these are part of the total
        have hd := hrows d (UniqueTable.find?_eq_some.mp hfind).1
        show m.chunkCount - d.row.chunkCount = s'.documents.total fun d => d.chunks.size
        rw [hd, hcount, chunkRows]
        omega

/-- After every history of a workspace the counters agree with the documents exactly when no
    operation has ingested a document that was there. -/
theorem countersAgree_iff (workspaceId : String) {es : List WorkspaceEvent} {s : Workspace}
    (hrun : exec step { workspaceId := workspaceId } es = some s) :
    s.CountersAgree ↔
      AllSteps step (fun s e => s.isFirst e = true) { workspaceId := workspaceId } es := by
  have hprocessed : s.AllProcessed :=
    exec_invariant allProcessed_step (fun d hd => absurd hd List.not_mem_nil) hrun
  have hdrift := drifted_run (n := 0) ⟨{}, rfl, rfl⟩ hrun
  rw [Nat.zero_add] at hdrift
  obtain ⟨m, hm, hcount⟩ := hdrift
  have hsize := processedDocuments_eq_size hprocessed
  have hfirst : collect step again { workspaceId := workspaceId } es = [] ↔
      AllSteps step (fun s e => s.isFirst e = true) { workspaceId := workspaceId } es :=
    (collect_eq_nil_iff hrun).trans
      (allSteps_congr_of_exec hrun fun s e s' _ => again_eq_nil_iff)
  constructor
  · rintro ⟨m', hm', hdocuments, -⟩
    obtain rfl := Option.mem_unique hm hm'
    -- all rows are processed, so the counter has not drifted
    rw [← hfirst, ← List.length_eq_zero_iff]
    omega
  · intro hall
    have hchunks : s.ChunksCounted := by
      refine exec_invariant_of_allSteps chunksCounted_step ?_ hall hrun
      exact ⟨fun d hd => absurd hd List.not_mem_nil, {}, rfl, rfl⟩
    obtain ⟨m', hm', htotal⟩ := hchunks.total
    obtain rfl := Option.mem_unique hm hm'
    rw [hfirst.mpr hall] at hcount
    exact ⟨m, hm, hcount.trans hsize.symm, htotal⟩

/-- An upload of a document of one chunk. -/
def sampleIngestion (workflowRunId : RunId) (startTime : Timestamp) : Ingestion where
  run := {
    messageNo := 0
    input := IngestionSystem.sampleInput
    workflowRunId := workflowRunId
    startTime := startTime }
  claimedAt := startTime
  markedAt := startTime
  storedAt := startTime
  textLength := 5
  batch := IngestionSystem.sampleBatch

/-- It is uploaded, deleted and uploaded again. -/
def uploadDeleteUpload : List WorkspaceEvent :=
  [.ingest (sampleIngestion "run-1" 1), .delete "doc", .ingest (sampleIngestion "run-2" 2)]

theorem countersAgree_uploadDeleteUpload :
    ∃ s, exec step { workspaceId := "ws" } uploadDeleteUpload = some s ∧ s.CountersAgree := by
  obtain ⟨s, hrun⟩ := Option.isSome_iff_exists.mp
    (by decide : (exec step { workspaceId := "ws" } uploadDeleteUpload).isSome = true)
  exact ⟨s, hrun, (countersAgree_iff "ws" hrun).mpr (by decide)⟩

/-- It is uploaded and then uploaded again. -/
def uploadedTwice : List WorkspaceEvent :=
  [.ingest (sampleIngestion "run-1" 1), .ingest (sampleIngestion "run-2" 2)]

/-- The one document is counted twice. -/
theorem not_countersAgree_uploadedTwice :
    ¬ ∀ (workspaceId : String) (es : List WorkspaceEvent) (s : Workspace),
      exec step { workspaceId := workspaceId } es = some s → s.CountersAgree := by
  intro h
  obtain ⟨s, hrun⟩ := Option.isSome_iff_exists.mp
    (by decide : (exec step { workspaceId := "ws" } uploadedTwice).isSome = true)
  have hend : ((exec step { workspaceId := "ws" } uploadedTwice).map fun s =>
      (s.tables.metadata, s.processedDocuments, s.chunkRows)) = some (some ⟨2, 2, 10⟩, 1, 1) := by
    decide
  rw [hrun] at hend
  simp only [Option.map_some, Option.some.injEq, Prod.mk.injEq] at hend
  obtain ⟨hmetadata, hdocuments, -⟩ := hend
  obtain ⟨m, hm, hcount, -⟩ := h "ws" uploadedTwice s hrun
  rw [hmetadata, Option.mem_some] at hm
  rw [hdocuments, ← hm] at hcount
  revert hcount
  decide

end Workspace

end Inherent
