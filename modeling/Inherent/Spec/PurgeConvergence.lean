import Inherent.Native.PurgeStores
import Inherent.Spec.PurgeVerification

/-!
# Convergence of the purge

The deletes of the purge commute, and each does nothing the second time, so a purge that
stopped anywhere may be run again: what the second run leaves depends on the stores from
before the first only.  Three things go with the workspace, or stay, by design.  A chunk lies
under a document, and goes with it whatever workspace it carries; an audit log that names the
workspace goes even when it names another one as well.
-/

open IdempotentSteps

namespace Inherent

namespace PurgeStores

variable {s : PurgeStores} {w : String}

/-! ## The deletes -/

/-- No chunk lies under a document of the workspace any more. -/
theorem not_cascades_deleteWorkspaceData (c : StoreRow) :
    ¬ (s.deleteWorkspaceData w).Cascades w c := by
  intro h
  obtain ⟨d, hd, hw, -⟩ := h
  have hkept : d ∈ (s.rows .processedDocuments).filter fun r => r.workspaceId ≠ some w := hd
  exact of_decide_eq_true (List.mem_filter.mp hkept).2 hw

theorem not_reuseCascades_deleteWorkspaceData (e : ReuseEvent) :
    ¬ (s.deleteWorkspaceData w).ReuseCascades w e := by
  intro h
  obtain ⟨c, -, hc, -⟩ := h
  exact not_cascades_deleteWorkspaceData c hc

theorem not_resultCascades_deleteWorkspaceEvalData (r : EvalRunResult) :
    ¬ (s.deleteWorkspaceEvalData w).ResultCascades w r := by
  intro h
  obtain ⟨run, hrun, hw, -⟩ := h
  have hkept : run ∈ (s.rows .evalRuns).filter fun r => r.workspaceId ≠ some w := hrun
  exact of_decide_eq_true (List.mem_filter.mp hkept).2 hw

/-- A delete on tables from which it has deleted. -/
theorem deleteWhere_of_deleted {s' : PurgeStores} {tables : List ResidueTable}
    {t : ResidueTable} (h : s'.rows t = s.deleteWhere w tables t) :
    s'.deleteWhere w tables t = s'.rows t := by
  simp only [deleteWhere] at h ⊢
  split
  · rename_i ht
    rw [h, if_pos ht, List.filter_filter]
    simp only [Bool.and_self]
  · rfl

theorem deleteWorkspaceData_idem :
    (s.deleteWorkspaceData w).deleteWorkspaceData w = s.deleteWorkspaceData w := by
  apply PurgeStores.ext
  · funext t
    by_cases ht : t = .documentChunks
    · subst ht
      exact List.filter_eq_self.mpr fun c _ =>
        decide_eq_true (not_cascades_deleteWorkspaceData c)
    · have hrows : (s.deleteWorkspaceData w).rows t =
          s.deleteWhere w [.processedDocuments, .workspaceMetadata] t := if_neg ht
      exact (if_neg ht).trans (deleteWhere_of_deleted hrows)
  · exact List.filter_eq_self.mpr fun e _ =>
      decide_eq_true (not_reuseCascades_deleteWorkspaceData e)
  · rfl
  · rfl
  · rfl

theorem deleteWorkspaceSideTables_idem :
    (s.deleteWorkspaceSideTables w).deleteWorkspaceSideTables w =
      s.deleteWorkspaceSideTables w := by
  apply PurgeStores.ext
  · funext t
    exact deleteWhere_of_deleted rfl
  all_goals rfl

theorem deleteWorkspaceEvalData_idem :
    (s.deleteWorkspaceEvalData w).deleteWorkspaceEvalData w = s.deleteWorkspaceEvalData w := by
  apply PurgeStores.ext
  · funext t
    exact deleteWhere_of_deleted rfl
  · rfl
  · exact List.filter_eq_self.mpr fun r _ =>
      decide_eq_true (not_resultCascades_deleteWorkspaceEvalData r)
  all_goals rfl

theorem deleteWorkspaceCollection_idem :
    (s.deleteWorkspaceCollection w).deleteWorkspaceCollection w =
      s.deleteWorkspaceCollection w := by
  apply PurgeStores.ext <;> try rfl
  funext v
  simp only [deleteWorkspaceCollection]
  split <;> rfl

theorem deleteWorkspaceAuditLogs_idem :
    (s.deleteWorkspaceAuditLogs w).deleteWorkspaceAuditLogs w = s.deleteWorkspaceAuditLogs w := by
  apply PurgeStores.ext <;> try rfl
  simp only [deleteWorkspaceAuditLogs, List.filter_filter, Bool.and_self]

theorem revokeWorkspaceApiKeys_idem :
    (s.revokeWorkspaceApiKeys w).revokeWorkspaceApiKeys w = s.revokeWorkspaceApiKeys w := by
  apply PurgeStores.ext <;> try rfl
  funext t
  by_cases ht : t = .apiKeysActive
  · subst ht
    simp only [revokeWorkspaceApiKeys, ↓reduceIte, List.map_map]
    refine List.map_congr_left fun key _ => ?_
    simp only [Function.comp_apply]
    split <;> simp_all
  · simp only [revokeWorkspaceApiKeys, if_neg ht]

end PurgeStores

/-- The deletes of a purge commute, and each does nothing the second time. -/
theorem steps_purgeDelete (input : PurgeWorkspaceInput) :
    Steps fun d : PurgeDelete => d.apply input where
  idempotent d s := by
    cases d with
    | workspaceData => exact PurgeStores.deleteWorkspaceData_idem
    | sideTables => exact PurgeStores.deleteWorkspaceSideTables_idem
    | evalData => exact PurgeStores.deleteWorkspaceEvalData_idem
    | collection => exact PurgeStores.deleteWorkspaceCollection_idem
    | auditLogs =>
      simp only [PurgeDelete.apply]
      split
      · rfl
      · exact PurgeStores.deleteWorkspaceAuditLogs_idem
    | apiKeys => exact PurgeStores.revokeWorkspaceApiKeys_idem
  commute i j s := by
    -- two different deletes write to different tables, and read what the other leaves alone
    cases hretain : input.retainAuditLogs <;> cases i <;> cases j <;>
      simp only [PurgeDelete.apply, hretain] <;>
      first
        | rfl
        | (apply PurgeStores.ext
           · funext t
             cases t <;> rfl
           all_goals rfl)

/-! ## The stores of the workspace -/

/-- The delete on the stores of one workspace. -/
def PurgeDelete.onWorkspace (input : PurgeWorkspaceInput) :
    PurgeDelete → WorkspaceStores → WorkspaceStores
  | workspaceData, s => (Inherent.deleteWorkspaceData s).2
  | sideTables, s =>
    s.deleteRows [.deadLetterJobs, .ingestionEvents, .redactionAudit, .workspaceStatsLedger]
  | evalData, s => s.deleteRows [.evalQueryEvents, .evalFeedback, .evalCases, .evalRuns]
  | collection, s => (Inherent.deleteWorkspaceCollection (.answers true) s).2
  | auditLogs, s => (deleteAuditLogs input s).2
  | apiKeys, s => (revokeApiKeys s).2

attribute [ext] WorkspaceStores

namespace PurgeStores

variable {s : PurgeStores} {w : String}

/-- A delete on tables takes every row of the workspace from them. -/
theorem length_filter_deleteWhere (tables : List ResidueTable) (t : ResidueTable)
    (p : StoreRow → Prop) [DecidablePred p] :
    ((s.deleteWhere w tables t).filter fun r => r.workspaceId = some w ∧ p r).length =
      if t ∈ tables then 0
      else ((s.rows t).filter fun r => r.workspaceId = some w ∧ p r).length := by
  unfold deleteWhere
  split
  · rw [List.length_eq_zero_iff, List.filter_eq_nil_iff]
    intro r hr
    have hne := of_decide_eq_true (List.mem_filter.mp hr).2
    simp [hne]
  · rfl

/-- Where the chunks of the workspace lie under its documents, what a delete leaves of the
    workspace is what the purge of one workspace leaves. -/
theorem ofWorkspace_apply {input : PurgeWorkspaceInput} (d : PurgeDelete)
    (hchunks : ∀ c ∈ s.rows .documentChunks, c.workspaceId = some input.workspaceId →
      s.Cascades input.workspaceId c) :
    (d.apply input s).ofWorkspace input.workspaceId =
      d.onWorkspace input (s.ofWorkspace input.workspaceId) := by
  cases d with
  | workspaceData =>
    apply WorkspaceStores.ext
    · funext t
      by_cases ht : t = .documentChunks
      · subst ht
        have hnone : ((s.deleteWorkspaceData input.workspaceId).rows .documentChunks).filter
            (fun r => r.workspaceId = some input.workspaceId ∧
              (ResidueTable.documentChunks = .apiKeysActive → r.active = true)) = [] := by
          rw [List.filter_eq_nil_iff]
          intro c hc
          have hmem := List.mem_filter.mp hc
          have hstays := of_decide_eq_true hmem.2
          have hw : c.workspaceId ≠ some input.workspaceId := fun h =>
            hstays (hchunks c hmem.1 h)
          simp [hw]
        exact List.length_eq_zero_iff.mpr hnone
      · have hrows : (s.deleteWorkspaceData input.workspaceId).rows t =
            s.deleteWhere input.workspaceId [.processedDocuments, .workspaceMetadata] t :=
          if_neg ht
        have hlen := length_filter_deleteWhere (s := s) (w := input.workspaceId)
          [.processedDocuments, .workspaceMetadata] t
          fun r => t = .apiKeysActive → r.active = true
        simp only [ofWorkspace, PurgeDelete.apply, hrows, hlen]
        simp [PurgeDelete.onWorkspace, Inherent.deleteWorkspaceData, WorkspaceStores.deleteRows,
          ht]
    · rfl
    · rfl
  | sideTables =>
    apply WorkspaceStores.ext
    · funext t
      exact length_filter_deleteWhere _ t fun r => t = .apiKeysActive → r.active = true
    · rfl
    · rfl
  | evalData =>
    apply WorkspaceStores.ext
    · funext t
      exact length_filter_deleteWhere _ t fun r => t = .apiKeysActive → r.active = true
    · rfl
    · rfl
  | collection =>
    apply WorkspaceStores.ext
    · rfl
    · exact if_pos rfl
    · rfl
  | auditLogs =>
    cases hretain : input.retainAuditLogs with
    | true => simp [PurgeDelete.apply, PurgeDelete.onWorkspace, deleteAuditLogs, hretain]
    | false =>
      apply WorkspaceStores.ext
      · simp [PurgeDelete.apply, PurgeDelete.onWorkspace, deleteAuditLogs, hretain, ofWorkspace,
          deleteWorkspaceAuditLogs]
      · simp [PurgeDelete.apply, PurgeDelete.onWorkspace, deleteAuditLogs, hretain, ofWorkspace,
          deleteWorkspaceAuditLogs]
      · simp [PurgeDelete.apply, PurgeDelete.onWorkspace, deleteAuditLogs, hretain, ofWorkspace,
          deleteWorkspaceAuditLogs, List.filter_filter]
  | apiKeys =>
    apply WorkspaceStores.ext
    · funext t
      by_cases ht : t = .apiKeysActive
      · subst ht
        have hnone : ((s.revokeWorkspaceApiKeys input.workspaceId).rows .apiKeysActive).filter
            (fun r => r.workspaceId = some input.workspaceId ∧
              (ResidueTable.apiKeysActive = .apiKeysActive → r.active = true)) = [] := by
          rw [List.filter_eq_nil_iff]
          intro r hr
          obtain ⟨key, -, hkey⟩ := List.mem_map.mp hr
          -- a key of the workspace has been revoked
          split at hkey <;> subst hkey <;> simp_all
        exact List.length_eq_zero_iff.mpr hnone
      · simp [PurgeDelete.apply, PurgeDelete.onWorkspace, ofWorkspace, revokeWorkspaceApiKeys,
          revokeApiKeys, WorkspaceStores.deleteRows, ht]
    · rfl
    · rfl

end PurgeStores

/-! ## The runs -/

/-- What the steps delete. -/
def deletesOf (steps : List PurgeStep) : List PurgeDelete :=
  steps.filterMap fun
    | .delete d => some d
    | .mark _ => none

theorem mem_deletesOf {steps : List PurgeStep} {d : PurgeDelete} :
    d ∈ deletesOf steps ↔ .delete d ∈ steps := by
  unfold deletesOf
  rw [List.mem_filterMap]
  constructor
  · intro h
    obtain ⟨step, hstep, hd⟩ := h
    cases step with
    | mark status => cases hd
    | delete d' => exact Option.some.inj hd ▸ hstep
  · intro h
    exact ⟨.delete d, h, rfl⟩

theorem runPurge_cons (input : PurgeWorkspaceInput) (step : PurgeStep) (steps : List PurgeStep)
    (s : PurgeState) : runPurge input (step :: steps) s = runPurge input steps (s.after input step) :=
  rfl

/-- The stores after a run are those that its deletes leave. -/
theorem stores_runPurge (input : PurgeWorkspaceInput) (steps : List PurgeStep)
    (s : PurgeState) :
    (runPurge input steps s).stores =
      run (fun d : PurgeDelete => d.apply input) (deletesOf steps) s.stores := by
  induction steps generalizing s with
  | nil => rfl
  | cons step steps ih =>
    rw [runPurge_cons, ih]
    cases step <;> rfl

/-- A run touches the marker of its workspace only. -/
theorem status_runPurge_of_ne (input : PurgeWorkspaceInput) (steps : List PurgeStep)
    (s : PurgeState) {v : String} (hv : v ≠ input.workspaceId) :
    (runPurge input steps s).status v = s.status v := by
  induction steps generalizing s with
  | nil => rfl
  | cons step steps ih =>
    rw [runPurge_cons, ih]
    cases step with
    | mark status => exact if_neg hv
    | delete d => rfl

theorem runPurge_append (input : PurgeWorkspaceInput) (steps steps' : List PurgeStep)
    (s : PurgeState) :
    runPurge input (steps ++ steps') s = runPurge input steps' (runPurge input steps s) :=
  List.foldl_append

namespace PurgeAttempts

variable {attempts : PurgeAttempts}

/-- A complete run takes every step. -/
theorem Complete.mem_steps (h : attempts.Complete) (activity : PurgeActivity) {step : PurgeStep}
    (hstep : step ∈ activity.transactions) : step ∈ attempts.steps := by
  obtain ⟨a, ha, hsteps⟩ := h activity
  have hactivity : activity ∈ PurgeActivity.all := by cases activity <;> decide
  exact List.mem_flatMap.mpr ⟨activity, hactivity,
    List.mem_flatMap.mpr ⟨a, ha, hsteps ▸ hstep⟩⟩

/-- A complete run takes every delete. -/
theorem Complete.mem_deletesOf (h : attempts.Complete) (d : PurgeDelete) :
    d ∈ deletesOf attempts.steps := by
  rw [Inherent.mem_deletesOf]
  cases d with
  | workspaceData => exact h.mem_steps .purgePostgresDocuments List.mem_cons_self
  | sideTables => exact h.mem_steps .purgePostgresSideTables List.mem_cons_self
  | evalData => exact h.mem_steps .purgePostgresSideTables (by decide)
  | collection => exact h.mem_steps .purgeWeaviateCollection List.mem_cons_self
  | auditLogs => exact h.mem_steps .purgeAuditLogs List.mem_cons_self
  | apiKeys => exact h.mem_steps .revokeWorkspaceApiKeys List.mem_cons_self

/-- A complete run ends with the mark of `mark_workspace_purged`. -/
theorem Complete.exists_steps_eq (h : attempts.Complete) :
    ∃ before marks, attempts.steps = before ++ marks ∧ marks ≠ [] ∧
      ∀ step ∈ marks, step = .mark .purged := by
  obtain ⟨a, ha, hsteps⟩ := h .markWorkspacePurged
  refine ⟨(PurgeActivity.all.take 6).flatMap fun activity =>
      (attempts activity).flatMap activity.steps,
    (attempts .markWorkspacePurged).flatMap PurgeActivity.markWorkspacePurged.steps, ?_, ?_, ?_⟩
  · simp [PurgeAttempts.steps, PurgeActivity.all]
  · have hmem : PurgeStep.mark .purged ∈
        (attempts .markWorkspacePurged).flatMap PurgeActivity.markWorkspacePurged.steps :=
      List.mem_flatMap.mpr ⟨a, ha, hsteps ▸ List.mem_cons_self⟩
    exact List.ne_nil_of_mem hmem
  · intro step hstep
    obtain ⟨b, -, hb⟩ := List.mem_flatMap.mp hstep
    exact List.mem_singleton.mp (List.mem_of_mem_take hb)

end PurgeAttempts

/-- After marks of one status the workspace has it. -/
theorem status_runPurge_of_marks (input : PurgeWorkspaceInput) {status : PurgeStatus}
    {marks : List PurgeStep} (hmarks : ∀ step ∈ marks, step = .mark status) (hne : marks ≠ [])
    (s : PurgeState) : (runPurge input marks s).status input.workspaceId = some status := by
  induction marks generalizing s with
  | nil => exact absurd rfl hne
  | cons step marks ih =>
    have hrun : runPurge input (step :: marks) s = runPurge input marks (s.after input step) :=
      rfl
    rw [hrun]
    by_cases hnil : marks = []
    · subst hnil
      rw [hmarks step List.mem_cons_self]
      exact if_pos rfl
    · exact ih (fun step hstep => hmarks step (List.mem_cons_of_mem _ hstep)) hnil _

/-- What the deletes of a purge leave. -/
def PurgeStores.purged (input : PurgeWorkspaceInput) (s : PurgeStores) : PurgeStores :=
  run (fun d : PurgeDelete => d.apply input)
    [.workspaceData, .sideTables, .evalData, .collection, .auditLogs, .apiKeys] s

/-- A complete run after any others leaves what the deletes leave of the first stores. -/
theorem runPurge_complete (input : PurgeWorkspaceInput) {again : PurgeAttempts}
    (h : again.Complete) (earlier : List PurgeStep) (s : PurgeState) :
    runPurge input again.steps (runPurge input earlier s) =
      { stores := s.stores.purged input
        status := fun v => if v = input.workspaceId then some .purged else s.status v } := by
  have hsteps := steps_purgeDelete input
  have hall : ∀ deletes : List PurgeDelete, deletes ⊆ deletesOf again.steps :=
    fun _ d _ => h.mem_deletesOf d
  have hstores : (runPurge input again.steps (runPurge input earlier s)).stores =
      s.stores.purged input := by
    rw [stores_runPurge, stores_runPurge, run_of_subset_of_run hsteps (hall _)]
    refine run_eq_of_subset hsteps ?_ (hall _) s.stores
    intro d _
    cases d <;> decide
  have hstatus : (runPurge input again.steps (runPurge input earlier s)).status =
      fun v => if v = input.workspaceId then some .purged else s.status v := by
    funext v
    by_cases hv : v = input.workspaceId
    · obtain ⟨before, marks, hsplit, hne, hmarks⟩ := h.exists_steps_eq
      rw [if_pos hv, hv, hsplit, runPurge_append]
      exact status_runPurge_of_marks input hmarks hne _
    · rw [if_neg hv, status_runPurge_of_ne input _ _ hv, status_runPurge_of_ne input _ _ hv]
  rw [← hstores, ← hstatus]

/-! ## What a purge leaves -/

/-- The stores after the deletes of a purge, table by table. -/
theorem PurgeStores.purged_eq (input : PurgeWorkspaceInput) (s : PurgeStores) :
    s.purged input =
      { rows := fun t =>
          if t = .documentChunks then
            (s.rows t).filter fun c => ¬ s.Cascades input.workspaceId c
          else if t = .apiKeysActive then
            (s.rows t).map fun key =>
              if key.workspaceId = some input.workspaceId then { key with active := false }
              else key
          else (s.rows t).filter fun r => r.workspaceId ≠ some input.workspaceId
        reuseEvents := s.reuseEvents.filter fun e => ¬ s.ReuseCascades input.workspaceId e
        runResults := s.runResults.filter fun r => ¬ s.ResultCascades input.workspaceId r
        collections := fun v => if v = input.workspaceId then none else s.collections v
        auditLogs := s.auditLogs.filter fun log =>
          input.retainAuditLogs = true ∨ ¬ log.names input.workspaceId } := by
  cases hretain : input.retainAuditLogs with
  | true =>
    simp only [purged, run_cons, run_nil, PurgeDelete.apply, hretain, true_or, decide_true,
      List.filter_true]
    apply PurgeStores.ext
    · funext t
      cases t <;> rfl
    all_goals rfl
  | false =>
    simp only [purged, run_cons, run_nil, PurgeDelete.apply, hretain, Bool.false_eq_true,
      false_or]
    apply PurgeStores.ext
    · funext t
      cases t <;> rfl
    all_goals rfl

/-- The audit log names a workspace other than this one. -/
def AuditLog.NamesOther (log : AuditLog) (workspaceId : String) : Prop :=
  (∃ v ∈ log.workspaceId, v ≠ workspaceId) ∨ ∃ v ∈ log.workspaceIds, v ≠ workspaceId

instance (log : AuditLog) (workspaceId : String) : Decidable (log.NamesOther workspaceId) :=
  inferInstanceAs (Decidable (_ ∨ _))

/-- Nothing of the workspace is left in the stores that `verify_purge` counts. -/
structure PurgeState.NoResidue (input : PurgeWorkspaceInput) (s : PurgeState) : Prop where
  rows : ∀ t, (s.stores.ofWorkspace input.workspaceId).rows t = 0
  collection : (s.stores.ofWorkspace input.workspaceId).collection = none
  auditLogs : input.retainAuditLogs = false →
    (s.stores.ofWorkspace input.workspaceId).auditLogs = 0

/-- What belongs to the other workspaces is as it was in the first state. -/
structure PurgeState.OthersUntouched (workspaceId : String) (s₀ s : PurgeState) : Prop where
  rows : ∀ t, ((s.stores.rows t).filter fun r => r.workspaceId ≠ some workspaceId) =
    (s₀.stores.rows t).filter fun r => r.workspaceId ≠ some workspaceId
  reuseEvents : (s.stores.reuseEvents.filter fun e => e.workspaceId ≠ workspaceId) =
    s₀.stores.reuseEvents.filter fun e => e.workspaceId ≠ workspaceId
  runResults : (s.stores.runResults.filter fun r => ¬ s₀.stores.ResultCascades workspaceId r) =
    s₀.stores.runResults.filter fun r => ¬ s₀.stores.ResultCascades workspaceId r
  collections : ∀ v, v ≠ workspaceId → s.stores.collections v = s₀.stores.collections v
  auditLogs : (s.stores.auditLogs.filter fun log => log.NamesOther workspaceId) =
    s₀.stores.auditLogs.filter fun log => log.NamesOther workspaceId
  status : ∀ v, v ≠ workspaceId → s.status v = s₀.status v

/-- The same but for the chunks that carry the workspace under a document of another one. -/
structure PurgeState.NoResidueBelow (input : PurgeWorkspaceInput) (s₀ s : PurgeState) :
    Prop where
  rows : ∀ t, t ≠ .documentChunks → (s.stores.ofWorkspace input.workspaceId).rows t = 0
  chunks : ∀ c ∈ s.stores.rows .documentChunks, c.workspaceId = some input.workspaceId →
    c ∈ s₀.stores.rows .documentChunks ∧ ¬ s₀.stores.Cascades input.workspaceId c
  collection : (s.stores.ofWorkspace input.workspaceId).collection = none
  auditLogs : input.retainAuditLogs = false →
    (s.stores.ofWorkspace input.workspaceId).auditLogs = 0

/-- The same but for the chunks, with their reuse events, under a document of the workspace,
    and for the audit logs that name it beside another one. -/
structure PurgeState.OthersKept (input : PurgeWorkspaceInput) (s₀ s : PurgeState) : Prop where
  rows : ∀ t, t ≠ .documentChunks →
    ((s.stores.rows t).filter fun r => r.workspaceId ≠ some input.workspaceId) =
      (s₀.stores.rows t).filter fun r => r.workspaceId ≠ some input.workspaceId
  chunks : ((s.stores.rows .documentChunks).filter fun c =>
      c.workspaceId ≠ some input.workspaceId) =
    (s₀.stores.rows .documentChunks).filter fun c =>
      c.workspaceId ≠ some input.workspaceId ∧ ¬ s₀.stores.Cascades input.workspaceId c
  reuseEvents : (s.stores.reuseEvents.filter fun e => e.workspaceId ≠ input.workspaceId) =
    s₀.stores.reuseEvents.filter fun e =>
      e.workspaceId ≠ input.workspaceId ∧ ¬ s₀.stores.ReuseCascades input.workspaceId e
  runResults : (s.stores.runResults.filter fun r =>
      ¬ s₀.stores.ResultCascades input.workspaceId r) =
    s₀.stores.runResults.filter fun r => ¬ s₀.stores.ResultCascades input.workspaceId r
  collections : ∀ v, v ≠ input.workspaceId → s.stores.collections v = s₀.stores.collections v
  auditLogs : (s.stores.auditLogs.filter fun log => log.NamesOther input.workspaceId) =
    s₀.stores.auditLogs.filter fun log => log.NamesOther input.workspaceId ∧
      (input.retainAuditLogs = true ∨ ¬ log.names input.workspaceId)
  status : ∀ v, v ≠ input.workspaceId → s.status v = s₀.status v

namespace PurgeState

/-- The state that every purge to completion ends in. -/
def purged (input : PurgeWorkspaceInput) (s : PurgeState) : PurgeState where
  stores := s.stores.purged input
  status v := if v = input.workspaceId then some .purged else s.status v

variable (input : PurgeWorkspaceInput) (s : PurgeState)

private theorem filter_ne_filter_ne (rows : List StoreRow) (w : Option String) :
    ((rows.filter fun r => r.workspaceId ≠ w).filter fun r => r.workspaceId ≠ w) =
      rows.filter fun r => r.workspaceId ≠ w := by
  rw [List.filter_filter]
  simp only [Bool.and_self]

/-- Revoking leaves the keys of the other workspaces. -/
private theorem filter_ne_revoke (rows : List StoreRow) (w : String) :
    ((rows.map fun key => if key.workspaceId = some w then { key with active := false }
        else key).filter fun r => r.workspaceId ≠ some w) =
      rows.filter fun r => r.workspaceId ≠ some w := by
  induction rows with
  | nil => rfl
  | cons key rows ih =>
    rw [List.map_cons]
    by_cases hkey : key.workspaceId = some w
    · rw [if_pos hkey, List.filter_cons_of_neg (by simp [hkey]),
        List.filter_cons_of_neg (by simp [hkey]), ih]
    · rw [if_neg hkey, List.filter_cons_of_pos (by simp [hkey]),
        List.filter_cons_of_pos (by simp [hkey]), ih]

/-- A row of the workspace is left in the table of chunks only. -/
theorem noResidueBelow_purged : NoResidueBelow input s (s.purged input) where
  rows t ht := by
    simp only [purged, PurgeStores.ofWorkspace, PurgeStores.purged_eq, if_neg ht]
    rw [List.length_eq_zero_iff, List.filter_eq_nil_iff]
    intro r hr
    split at hr
    · -- an API key of the workspace is not active
      rename_i hkeys
      obtain ⟨key, -, rfl⟩ := List.mem_map.mp hr
      split <;> simp_all
    · have hne := of_decide_eq_true (List.mem_filter.mp hr).2
      simp [hne]
  chunks c hc _ := by
    simp only [purged, PurgeStores.purged_eq, if_true] at hc
    obtain ⟨hmem, hcascades⟩ := List.mem_filter.mp hc
    exact ⟨hmem, of_decide_eq_true hcascades⟩
  collection := by
    simp only [purged, PurgeStores.ofWorkspace, PurgeStores.purged_eq, if_true]
  auditLogs hretain := by
    simp only [purged, PurgeStores.ofWorkspace, PurgeStores.purged_eq, hretain,
      Bool.false_eq_true, false_or]
    rw [List.length_eq_zero_iff, List.filter_eq_nil_iff]
    intro log hlog
    have hnames := of_decide_eq_true (List.mem_filter.mp hlog).2
    simp [hnames]

/-- What the purge takes from other workspaces are cascades and shared audit logs. -/
theorem othersKept_purged : OthersKept input s (s.purged input) where
  rows t ht := by
    simp only [purged, PurgeStores.purged_eq, if_neg ht]
    split
    · exact filter_ne_revoke _ _
    · exact filter_ne_filter_ne _ _
  chunks := by
    simp only [purged, PurgeStores.purged_eq, if_true, List.filter_filter]
    simp
  reuseEvents := by
    simp only [purged, PurgeStores.purged_eq, List.filter_filter]
    simp
  runResults := by
    simp only [purged, PurgeStores.purged_eq, List.filter_filter, Bool.and_self]
  collections v hv := by
    simp only [purged, PurgeStores.purged_eq, if_neg hv]
  auditLogs := by
    simp only [purged, PurgeStores.purged_eq, List.filter_filter]
    simp
  status v hv := if_neg hv

/-- Purges of the workspace converge: for every first run, stopped after any of the steps
    that it takes, and every run to completion after it, the final state has the two
    properties, another run to completion changes nothing, and it is the final state whatever
    the first run was and wherever it stopped. -/
def Convergent (Cleared Kept : PurgeState → Prop) : Prop :=
  ∀ (first : PurgeAttempts) (k : Nat) (again : PurgeAttempts), again.Complete →
    let final := runPurge input again.steps (runPurge input (first.steps.take k) s)
    Cleared final ∧ Kept final ∧
      (∀ more : PurgeAttempts, more.Complete → runPurge input more.steps final = final) ∧
      ∀ (first' : PurgeAttempts) (k' : Nat) (again' : PurgeAttempts), again'.Complete →
        runPurge input again'.steps (runPurge input (first'.steps.take k') s) = final

/-- The purges of a workspace converge, up to cascades and shared audit logs. -/
theorem convergent_upToCascades (input : PurgeWorkspaceInput) (s : PurgeState) :
    Convergent input s (NoResidueBelow input s) (OthersKept input s) := by
  intro first k again hagain
  have hfinal : ∀ (steps : List PurgeStep) {attempts : PurgeAttempts}, attempts.Complete →
      runPurge input attempts.steps (runPurge input steps s) = s.purged input :=
    fun steps _ hcomplete => runPurge_complete input hcomplete steps s
  simp only [hfinal _ hagain]
  refine ⟨noResidueBelow_purged input s, othersKept_purged input s, ?_, ?_⟩
  · intro more hmore
    -- the final state is itself one that a run has left
    have hagain' : runPurge input again.steps s = s.purged input := hfinal [] hagain
    have hmore' := hfinal again.steps hmore
    rwa [hagain'] at hmore'
  · intro first' k' again' hagain'
    exact hfinal _ hagain'

/-- A run without a failure. -/
def unfailing : PurgeAttempts := fun _ => [{ committed := 2 }]

theorem complete_unfailing : unfailing.Complete := by
  intro activity
  refine ⟨_, List.mem_cons_self, ?_⟩
  cases activity <;> rfl

/-- An audit log that names another workspace beside the purged one goes, and a chunk of the
    purged workspace under a document of another one stays. -/
theorem not_convergent_shared :
    ¬ Convergent { workspaceId := "ws", operator := "op" }
        { stores :=
            { rows := fun _ => []
              auditLogs := [{ id := 0, workspaceId := none, workspaceIds := ["ws", "other"] }] } }
        (NoResidue { workspaceId := "ws", operator := "op" })
        (OthersUntouched "ws"
          { stores :=
              { rows := fun _ => []
                auditLogs :=
                  [{ id := 0, workspaceId := none, workspaceIds := ["ws", "other"] }] } }) ∧
      ¬ Convergent { workspaceId := "ws", operator := "op" }
        { stores :=
            { rows := fun
                | .processedDocuments => [{ id := 7, workspaceId := some "other" }]
                | .documentChunks =>
                  [{ id := 0, workspaceId := some "ws", processedDocumentId := some 7 }]
                | _ => [] } }
        (NoResidue { workspaceId := "ws", operator := "op" }) (fun _ => True) := by
  constructor
  · intro h
    obtain ⟨-, hkept, -⟩ := h unfailing 0 unfailing complete_unfailing
    exact absurd hkept.auditLogs (by decide)
  · intro h
    obtain ⟨hcleared, -⟩ := h unfailing 0 unfailing complete_unfailing
    exact absurd (hcleared.rows .documentChunks) (by decide)

end PurgeState

end Inherent
