import Inherent.ForStd.StatefulProgram
import Inherent.Native.WorkspacePurge

/-!
# What a verified purge proves

`verified` says that no count of the last `verify_purge` is positive.  The counts of the
PostgreSQL tables and of MongoDB are the numbers of rows, but an object count that could
not be obtained is reported as `-1` or `0`, which is not positive either.  So a purge that
is verified has left nothing, unless the object count was unknown: then it says nothing
about the collection.
-/

namespace Inherent

open StatefulProgram

/-! ## Known counts -/

/-- The number of objects in the collection, as far as the vector store tells. -/
def WeaviateAccess.objectCount (access : WeaviateAccess) (s : WorkspaceStores) : Option Nat :=
  match access, s.collection with
  | .answers _, none => some 0
  | .answers true, some n => some n
  | _, _ => none

/-- The count of every store that the purge covers is known and zero. -/
structure WorkspaceStores.KnownEmpty (s : WorkspaceStores) (input : PurgeWorkspaceInput)
    (access : WeaviateAccess) : Prop where
  rows : ∀ t, s.rows t = 0
  collection : access.objectCount s = some 0
  auditLogs : input.retainAuditLogs = false → s.auditLogs = 0

/-- A row or an audit log of the workspace is left in a store that the purge covers. -/
def WorkspaceStores.HasRows (s : WorkspaceStores) (input : PurgeWorkspaceInput) : Prop :=
  (∃ t, 0 < s.rows t) ∨ input.retainAuditLogs = false ∧ 0 < s.auditLogs

/-- The object count that is reported is the number of objects where that is known, and
    otherwise no more than zero. -/
theorem workspaceCollectionObjectCount_eq_ok {access : WeaviateAccess} {s : WorkspaceStores}
    {n : Int} (h : workspaceCollectionObjectCount access s = .ok n) :
    (∃ k, access.objectCount s = some k ∧ n = k) ∨ access.objectCount s = none ∧ n ≤ 0 := by
  unfold workspaceCollectionObjectCount at h
  unfold WeaviateAccess.objectCount
  cases access with
  -- a failure is reported as `0` or `-1`
  | unavailable => cases h; exact Or.inr ⟨rfl, le_refl _⟩
  | disconnected => cases h
  | raises => cases h; exact Or.inr ⟨rfl, by omega⟩
  | answers totalCount =>
    cases hs : s.collection with
    | none =>
      rw [hs] at h
      cases h
      exact Or.inl ⟨0, rfl, rfl⟩
    | some k =>
      rw [hs] at h
      cases totalCount with
      | true => cases h; exact Or.inl ⟨k, rfl, rfl⟩
      | false => cases h; exact Or.inr ⟨rfl, le_refl _⟩

/-- A client that is not connected is the only reason for which the object count fails. -/
theorem exists_workspaceCollectionObjectCount {access : WeaviateAccess} (s : WorkspaceStores)
    (h : access ≠ .disconnected) : ∃ n, workspaceCollectionObjectCount access s = .ok n := by
  unfold workspaceCollectionObjectCount
  cases access with
  | disconnected => exact absurd rfl h
  | unavailable => exact ⟨_, rfl⟩
  | raises => exact ⟨_, rfl⟩
  | answers totalCount => cases s.collection <;> exact ⟨_, rfl⟩

/-- The report has the counts of the tables, the object count and, unless they are retained,
    the number of audit logs. -/
theorem residueReport_eq_ok {input : PurgeWorkspaceInput} {access : WeaviateAccess}
    {s : WorkspaceStores} {report : Residue} :
    residueReport input access s = .ok report ↔
      ∃ n, workspaceCollectionObjectCount access s = .ok n ∧
        report = countWorkspaceResidue s ++ [("weaviate_collection_objects", n)] ++
          if input.retainAuditLogs then [] else [("audit_logs", (s.auditLogs : Int))] := by
  unfold residueReport
  cases workspaceCollectionObjectCount access s with
  | error e => simp [bind, Except.bind]
  | ok n =>
    simp only [bind, Except.bind, pure, Except.pure, Except.ok.injEq]
    constructor
    · intro h
      exact ⟨n, rfl, h.symm⟩
    · rintro ⟨n', rfl, rfl⟩
      rfl

theorem residueReport_isOk_iff {input : PurgeWorkspaceInput} {access : WeaviateAccess}
    {s : WorkspaceStores} :
    (∃ report, residueReport input access s = .ok report) ↔ access ≠ .disconnected := by
  constructor
  · rintro ⟨report, h⟩ rfl
    obtain ⟨n, hn, -⟩ := residueReport_eq_ok.mp h
    cases hn
  · intro h
    obtain ⟨n, hn⟩ := exists_workspaceCollectionObjectCount s h
    exact ⟨_, residueReport_eq_ok.mpr ⟨n, hn, rfl⟩⟩

private theorem allCountsClean_countWorkspaceResidue {s : WorkspaceStores} :
    allCountsClean (countWorkspaceResidue s) = true ↔ ∀ t, s.rows t = 0 := by
  simp only [allCountsClean, countWorkspaceResidue, List.all_map, List.all_eq_true,
    Function.comp_apply, decide_eq_true_eq]
  constructor
  · intro h t
    have := h t t.mem_all
    omega
  · intro h t _
    rw [h t]
    exact le_refl _

/-- A report has no positive count exactly when no row is left and the object count is
    unknown or zero. -/
theorem allCountsClean_iff {input : PurgeWorkspaceInput} {access : WeaviateAccess}
    {s : WorkspaceStores} {report : Residue} (h : residueReport input access s = .ok report) :
    allCountsClean report = true ↔
      ¬ s.HasRows input ∧ ∀ k, access.objectCount s = some k → k = 0 := by
  obtain ⟨n, hn, rfl⟩ := residueReport_eq_ok.mp h
  have hrows : allCountsClean (countWorkspaceResidue s) = true ↔ ∀ t, s.rows t = 0 :=
    allCountsClean_countWorkspaceResidue
  have haudit : allCountsClean (if input.retainAuditLogs then []
      else [("audit_logs", (s.auditLogs : Int))]) = true ↔
      (input.retainAuditLogs = false → s.auditLogs = 0) := by
    cases input.retainAuditLogs with
    | true => simp [allCountsClean]
    | false => simp [allCountsClean]
  -- an unknown count is reported as no more than zero, so it says nothing
  have hobjects : n ≤ 0 ↔ ∀ k, access.objectCount s = some k → k = 0 := by
    rcases workspaceCollectionObjectCount_eq_ok hn with ⟨k, hk, rfl⟩ | ⟨hk, hle⟩
    · simp [hk]
    · simp [hk, hle]
  -- the object count stands between the tables and the audit logs
  have hsplit : ∀ l₁ l₂ : Residue,
      allCountsClean (l₁ ++ [("weaviate_collection_objects", n)] ++ l₂) = true ↔
        allCountsClean l₁ = true ∧ n ≤ 0 ∧ allCountsClean l₂ = true := by
    intro l₁ l₂
    simp [allCountsClean]
  rw [hsplit, hrows, haudit, hobjects]
  unfold WorkspaceStores.HasRows
  simp only [not_or, not_exists, not_and, Nat.not_lt, Nat.le_zero]
  tauto

/-- A report without positive counts proves the stores empty where the object count is
    known. -/
theorem knownEmpty_iff {input : PurgeWorkspaceInput} {access : WeaviateAccess}
    {s : WorkspaceStores} :
    s.KnownEmpty input access ↔ ¬ s.HasRows input ∧ access.objectCount s = some 0 := by
  constructor
  · intro h
    refine ⟨?_, h.collection⟩
    rintro (⟨t, ht⟩ | ⟨hretain, haudit⟩)
    · have := h.rows t
      omega
    · have := h.auditLogs hretain
      omega
  · rintro ⟨hrows, hobjects⟩
    unfold WorkspaceStores.HasRows at hrows
    simp only [not_or, not_exists, not_and, Nat.not_lt, Nat.le_zero] at hrows
    exact ⟨hrows.1, hobjects, hrows.2⟩

/-! ## One activity -/

@[simp] theorem exec_onStores {α : Type} (f : WorkspaceStores → α × WorkspaceStores)
    (s : PurgeSystem) :
    exec (onStores f) s = (.ok (f s.stores).1, { s with stores := (f s.stores).2 }) := rfl

/-- `verify_purge` returns the report, and writes nothing. -/
theorem exec_verifyPurge_eq_ok {input : PurgeWorkspaceInput} {access : WeaviateAccess}
    {s t : PurgeSystem} {report : Residue} :
    exec (verifyPurge input access) s = (.ok report, t) ↔
      residueReport input access s.stores = .ok report ∧ t = s := by
  unfold verifyPurge
  rw [exec_bind_of_ok (exec_get s)]
  cases residueReport input access s.stores with
  | ok report' =>
    simp only [exec_pure, Prod.mk.injEq, Except.ok.injEq]
    exact and_congr_right fun _ => eq_comm
  | error e => simp

theorem exec_purgeWeaviateCollection_eq_ok {access : WeaviateAccess} {s t : PurgeSystem}
    {deleted : Bool} :
    exec (purgeWeaviateCollection access) s = (.ok deleted, t) ↔
      access ≠ .disconnected ∧ deleted = (deleteWorkspaceCollection access s.stores).1 ∧
        t = { s with stores := (deleteWorkspaceCollection access s.stores).2 } := by
  unfold purgeWeaviateCollection
  split
  · rename_i h
    simp [h]
  · rename_i h
    rw [exec_onStores]
    simp only [Prod.mk.injEq, Except.ok.injEq, ne_eq, h, not_false_eq_true, true_and]
    exact and_congr eq_comm eq_comm

/-- A call returns when its activity does and the result reaches the workflow. -/
theorem exec_executeActivity_eq_ok {α : Type} {call : ActivityCall} {activity : PurgeM α}
    {s t : PurgeSystem} {a : α} :
    exec (executeActivity call activity) s = (.ok a, t) ↔
      call.failure = none ∧
        exec activity { s with stores := call.stores s.stores } = (.ok a, t) := by
  unfold executeActivity
  rw [exec_bind_of_ok (exec_modify _ s)]
  cases call.failure with
  | none => simp
  | some failure =>
    obtain ⟨effect, error⟩ := failure
    simp only [reduceCtorEq, false_and, iff_false]
    -- whether or not the last attempt took effect, its failure is raised
    intro h
    cases effect with
    | false => cases h
    | true =>
      obtain ⟨_, t', -, hthrow⟩ := exec_bind_eq_ok.mp h
      cases hthrow

/-- A call whose last attempt fails without effect raises. -/
theorem exec_executeActivity_of_no_effect {α : Type} {call : ActivityCall}
    {activity : PurgeM α} {s : PurgeSystem} {error : String}
    (hf : call.failure = some (false, error)) :
    exec (executeActivity call activity) s =
      (.error error, { s with stores := call.stores s.stores }) := by
  unfold executeActivity
  rw [exec_bind_of_ok (exec_modify _ s), hf]
  rfl

/-- A call whose last attempt takes effect and fails all the same raises after it. -/
theorem exec_executeActivity_of_effect {α : Type} {call : ActivityCall} {activity : PurgeM α}
    {s t : PurgeSystem} {a : α} {error : String} (hf : call.failure = some (true, error))
    (ha : exec activity { s with stores := call.stores s.stores } = (.ok a, t)) :
    exec (executeActivity call activity) s = (.error error, t) := by
  unfold executeActivity
  rw [exec_bind_of_ok (exec_modify _ s), hf]
  exact exec_bind_of_ok (exec_bind_of_ok ha)

/-- What a run leaves alone until it writes its receipt. -/
def KeepsReceipts (s t : PurgeSystem) : Prop := t.receipts = s.receipts ∧ t.recorded = s.recorded

theorem keeps_onStores {α : Type} (f : WorkspaceStores → α × WorkspaceStores) :
    Keeps KeepsReceipts (onStores f) := fun _ => ⟨rfl, rfl⟩

theorem keepsReceipts_trans (s t u : PurgeSystem) (hst : KeepsReceipts s t)
    (htu : KeepsReceipts t u) : KeepsReceipts s u :=
  ⟨htu.1.trans hst.1, htu.2.trans hst.2⟩

theorem keepsReceipts_refl (s : PurgeSystem) : KeepsReceipts s s := ⟨rfl, rfl⟩

theorem keeps_verifyPurge (input : PurgeWorkspaceInput) (access : WeaviateAccess) :
    Keeps KeepsReceipts (verifyPurge input access) := by
  intro s
  unfold verifyPurge
  rw [exec_bind_of_ok (exec_get s)]
  cases residueReport input access s.stores with
  | ok report => exact keepsReceipts_refl s
  | error e => exact keepsReceipts_refl s

theorem keeps_purgeWeaviateCollection (access : WeaviateAccess) :
    Keeps KeepsReceipts (purgeWeaviateCollection access) := by
  unfold purgeWeaviateCollection
  split
  · exact Keeps.throw keepsReceipts_refl _
  · exact keeps_onStores _

theorem keeps_executeActivity {α : Type} (call : ActivityCall) {activity : PurgeM α}
    (h : Keeps KeepsReceipts activity) : Keeps KeepsReceipts (executeActivity call activity) := by
  unfold executeActivity
  refine Keeps.bind keepsReceipts_trans ?_ ?_
  · exact Keeps.modify fun _ => ⟨rfl, rfl⟩
  intro _
  cases call.failure with
  | none => exact h
  | some failure =>
    obtain ⟨effect, error⟩ := failure
    cases effect with
    | false => exact Keeps.throw keepsReceipts_refl _
    | true =>
      -- the activity has run before its failure is raised
      apply Keeps.bind keepsReceipts_trans
      · exact Keeps.bind keepsReceipts_trans h fun _ => Keeps.pure keepsReceipts_refl _
      · exact fun _ => Keeps.throw keepsReceipts_refl _

/-- A run goes on after a call when the call returns. -/
theorem exec_call_bind_eq_ok {α β : Type} {call : ActivityCall} {activity : PurgeM α}
    {rest : α → PurgeM β} {s u : PurgeSystem} {b : β} :
    exec (executeActivity call activity >>= rest) s = (.ok b, u) ↔
      call.failure = none ∧ ∃ a t,
        exec activity { s with stores := call.stores s.stores } = (.ok a, t) ∧
          exec (rest a) t = (.ok b, u) := by
  rw [exec_bind_eq_ok]
  simp only [exec_executeActivity_eq_ok]
  constructor
  · rintro ⟨a, t, ⟨hf, ha⟩, hrest⟩
    exact ⟨hf, a, t, ha, hrest⟩
  · rintro ⟨hf, a, t, ha, hrest⟩
    exact ⟨a, t, ⟨hf, ha⟩, hrest⟩

theorem keeps_call_bind {α β : Type} {call : ActivityCall} {activity : PurgeM α}
    {rest : α → PurgeM β} (h : Keeps KeepsReceipts activity)
    (hrest : ∀ a, Keeps KeepsReceipts (rest a)) :
    Keeps KeepsReceipts (executeActivity call activity >>= rest) :=
  Keeps.bind keepsReceipts_trans (keeps_executeActivity call h) hrest

theorem returns_call_bind {α β : Type} {call : ActivityCall} {activity : PurgeM α}
    {rest : α → PurgeM β} {s t : PurgeSystem} {a : α} (hf : call.failure = none)
    (ha : exec activity { s with stores := call.stores s.stores } = (.ok a, t))
    (hrest : Returns (rest a) t) : Returns (executeActivity call activity >>= rest) s := by
  obtain ⟨b, u, hb⟩ := hrest
  exact ⟨b, u, exec_call_bind_eq_ok.mpr ⟨hf, a, t, ha, hb⟩⟩

theorem returns_verify_bind {β : Type} {input : PurgeWorkspaceInput} {call : ActivityCall}
    {access : WeaviateAccess} {rest : Residue → PurgeM β} {s : PurgeSystem}
    (hf : call.failure = none) (haccess : access ≠ .disconnected)
    (hrest : ∀ report, Returns (rest report) { s with stores := call.stores s.stores }) :
    Returns (executeActivity call (verifyPurge input access) >>= rest) s := by
  obtain ⟨report, hreport⟩ := residueReport_isOk_iff.mpr haccess
  exact returns_call_bind hf (exec_verifyPurge_eq_ok.mpr ⟨hreport, rfl⟩) (hrest report)

/-! ## The run up to the last count -/

/-- The run up to the last `verify_purge`: the counts before, the workflows cancelled, the
    keys revoked and the counts after. -/
def purgeAndCount (input : PurgeWorkspaceInput) (calls : PurgeCalls) :
    PurgeM (Residue × Nat × Nat × Residue) := do
  executeActivity calls.markPurging (setWorkspacePurgeStatus .purging)
  let countsBefore ←
    executeActivity calls.countBefore (verifyPurge input calls.countBeforeAccess)
  let cancelled ← executeActivity calls.cancelInflight (return calls.cancelled)
  let _ ← executeActivity calls.documents (onStores deleteWorkspaceData)
  let _ ← executeActivity calls.sideTables (onStores deleteSideTables)
  let _ ← executeActivity calls.collection (purgeWeaviateCollection calls.collectionAccess)
  let _ ← executeActivity calls.auditLogs (onStores (deleteAuditLogs input))
  let revokedKeys ← executeActivity calls.revokeKeys (onStores revokeApiKeys)
  executeActivity calls.markPurged (setWorkspacePurgeStatus .purged)
  let countsAfter ←
    executeActivity calls.countAfter (verifyPurge input calls.countAfterAccess)
  return (countsBefore, cancelled, revokedKeys, countsAfter)

/-- What is left is the receipt. -/
theorem purgeWorkspace_eq (input : PurgeWorkspaceInput) (purgeWorkflowId : String)
    (calls : PurgeCalls) :
    purgeWorkspace input purgeWorkflowId calls = (do
      let (countsBefore, cancelled, revokedKeys, countsAfter) ← purgeAndCount input calls
      executeActivity calls.receipt
        (recordPurgeReceipt input purgeWorkflowId countsBefore countsAfter)
      return { workspaceId := input.workspaceId, purgeWorkflowId := purgeWorkflowId,
               residue := countsAfter, verified := allCountsClean countsAfter,
               revokedApiKeys := revokedKeys, cancelledIngestionWorkflows := cancelled,
               auditLogsPurged := !input.retainAuditLogs }) := by
  unfold purgeWorkspace purgeAndCount
  simp only [bind_assoc, pure_bind]

namespace PurgeCalls

/-- The calls that come before the receipt. -/
def beforeReceipt (calls : PurgeCalls) : List ActivityCall :=
  [calls.markPurging, calls.countBefore, calls.cancelInflight, calls.documents,
    calls.sideTables, calls.collection, calls.auditLogs, calls.revokeKeys, calls.markPurged,
    calls.countAfter]

/-- No activity before the receipt fails: none of the calls fails for good, and the service
    of the vector store has a client whenever it is asked. -/
structure Completes (calls : PurgeCalls) : Prop where
  noFailure : ∀ call ∈ calls.beforeReceipt, call.failure = none
  countBefore : calls.countBeforeAccess ≠ .disconnected
  collection : calls.collectionAccess ≠ .disconnected
  countAfter : calls.countAfterAccess ≠ .disconnected

/-- The stores that the last `verify_purge` counts: what the deletes and the other writers
    have made of them by then. -/
def storesAtCount (calls : PurgeCalls) (input : PurgeWorkspaceInput) (s : WorkspaceStores) :
    WorkspaceStores :=
  let s := calls.cancelInflight.stores (calls.countBefore.stores (calls.markPurging.stores s))
  let s := (deleteWorkspaceData (calls.documents.stores s)).2
  let s := (deleteSideTables (calls.sideTables.stores s)).2
  let s := (deleteWorkspaceCollection calls.collectionAccess (calls.collection.stores s)).2
  let s := (deleteAuditLogs input (calls.auditLogs.stores s)).2
  let s := (revokeApiKeys (calls.revokeKeys.stores s)).2
  calls.countAfter.stores (calls.markPurged.stores s)

end PurgeCalls

/-- Up to the last count no receipt is written. -/
theorem keeps_purgeAndCount (input : PurgeWorkspaceInput) (calls : PurgeCalls) :
    Keeps KeepsReceipts (purgeAndCount input calls) := by
  have hstatus : ∀ status, Keeps KeepsReceipts (setWorkspacePurgeStatus status) :=
    fun status => Keeps.modify fun _ => ⟨rfl, rfl⟩
  -- one step for each activity, in the order of the run
  unfold purgeAndCount
  apply keeps_call_bind (hstatus _)
  intro _
  apply keeps_call_bind (keeps_verifyPurge _ _)
  intro countsBefore
  apply keeps_call_bind (Keeps.pure keepsReceipts_refl _)
  intro cancelled
  apply keeps_call_bind (keeps_onStores _)
  intro _
  apply keeps_call_bind (keeps_onStores _)
  intro _
  apply keeps_call_bind (keeps_purgeWeaviateCollection _)
  intro _
  apply keeps_call_bind (keeps_onStores _)
  intro _
  apply keeps_call_bind (keeps_onStores _)
  intro revokedKeys
  apply keeps_call_bind (hstatus _)
  intro _
  apply keeps_call_bind (keeps_verifyPurge _ _)
  intro countsAfter
  exact Keeps.pure keepsReceipts_refl _

/-- If the run gets to its last count, no activity before it has failed, and it counts what
    the deletes and the other writers have left. -/
theorem completes_of_exec {input : PurgeWorkspaceInput} {calls : PurgeCalls}
    {s t : PurgeSystem} {before after : Residue} {cancelled revoked : Nat}
    (h : exec (purgeAndCount input calls) s = (.ok (before, cancelled, revoked, after), t)) :
    calls.Completes ∧ residueReport input calls.countAfterAccess
      (calls.storesAtCount input s.stores) = .ok after := by
  -- each call has returned
  unfold purgeAndCount at h
  obtain ⟨hf₁, _, s₁, h₁, h⟩ := exec_call_bind_eq_ok.mp h
  obtain ⟨hf₂, before', s₂, h₂, h⟩ := exec_call_bind_eq_ok.mp h
  obtain ⟨hf₃, _, s₃, h₃, h⟩ := exec_call_bind_eq_ok.mp h
  obtain ⟨hf₄, _, s₄, h₄, h⟩ := exec_call_bind_eq_ok.mp h
  obtain ⟨hf₅, _, s₅, h₅, h⟩ := exec_call_bind_eq_ok.mp h
  obtain ⟨hf₆, _, s₆, h₆, h⟩ := exec_call_bind_eq_ok.mp h
  obtain ⟨hf₇, _, s₇, h₇, h⟩ := exec_call_bind_eq_ok.mp h
  obtain ⟨hf₈, _, s₈, h₈, h⟩ := exec_call_bind_eq_ok.mp h
  obtain ⟨hf₉, _, s₉, h₉, h⟩ := exec_call_bind_eq_ok.mp h
  obtain ⟨hf₁₀, after', s₁₀, h₁₀, h⟩ := exec_call_bind_eq_ok.mp h
  cases h
  -- the state after each activity
  cases h₁
  obtain ⟨hbefore, rfl⟩ := exec_verifyPurge_eq_ok.mp h₂
  cases h₃
  cases h₄
  cases h₅
  obtain ⟨haccess, -, rfl⟩ := exec_purgeWeaviateCollection_eq_ok.mp h₆
  cases h₇
  cases h₈
  cases h₉
  obtain ⟨hafter, -⟩ := exec_verifyPurge_eq_ok.mp h₁₀
  refine ⟨⟨?_, ?_, haccess, ?_⟩, hafter⟩
  · simp only [PurgeCalls.beforeReceipt, List.forall_mem_cons, List.not_mem_nil, false_imp_iff,
      implies_true, and_true]
    exact ⟨hf₁, hf₂, hf₃, hf₄, hf₅, hf₆, hf₇, hf₈, hf₉, hf₁₀⟩
  · -- a report is only returned by a connected client
    exact residueReport_isOk_iff.mp ⟨_, hbefore⟩
  · exact residueReport_isOk_iff.mp ⟨_, hafter⟩

/-- If no activity fails, the run gets to its last count. -/
theorem returns_purgeAndCount (input : PurgeWorkspaceInput) {calls : PurgeCalls}
    (h : calls.Completes) (s : PurgeSystem) : Returns (purgeAndCount input calls) s := by
  have hcalls := h.noFailure
  simp only [PurgeCalls.beforeReceipt, List.forall_mem_cons, List.not_mem_nil, false_imp_iff,
    implies_true, and_true] at hcalls
  obtain ⟨hf₁, hf₂, hf₃, hf₄, hf₅, hf₆, hf₇, hf₈, hf₉, hf₁₀⟩ := hcalls
  unfold purgeAndCount
  refine returns_call_bind hf₁ rfl ?_
  apply returns_verify_bind hf₂ h.countBefore
  intro before
  refine returns_call_bind hf₃ rfl ?_
  refine returns_call_bind hf₄ rfl ?_
  refine returns_call_bind hf₅ rfl ?_
  refine returns_call_bind hf₆
    (exec_purgeWeaviateCollection_eq_ok.mpr ⟨h.collection, rfl, rfl⟩) ?_
  refine returns_call_bind hf₇ rfl ?_
  refine returns_call_bind hf₈ rfl ?_
  refine returns_call_bind hf₉ rfl ?_
  apply returns_verify_bind hf₁₀ h.countAfter
  intro after
  exact ⟨_, _, rfl⟩

/-! ## The receipt -/

/-- The receipt of the run is on record, with what its counts say. -/
theorem exec_recordPurgeReceipt (input : PurgeWorkspaceInput) (purgeWorkflowId : String)
    (before after : Residue) (s : PurgeSystem) :
    ∃ row u, exec (recordPurgeReceipt input purgeWorkflowId before after) s = (.ok (), u) ∧
      u.recorded = true ∧ u.receipts.find? purgeWorkflowId = some row ∧
      row.verified = allCountsClean after := by
  unfold recordPurgeReceipt
  rw [exec_modify]
  cases h : s.receipts.find? purgeWorkflowId with
  | none =>
    exact ⟨_, _, rfl, rfl,
      UniqueTable.find?_eq_some.mpr ⟨UniqueTable.mem_put.mpr (Or.inl rfl), rfl⟩, rfl⟩
  | some row =>
    -- the receipt of an earlier attempt takes the new counts
    have hkey : row.purgeWorkflowId = purgeWorkflowId := (UniqueTable.find?_eq_some.mp h).2
    exact ⟨_, _, rfl, rfl,
      UniqueTable.find?_eq_some.mpr ⟨UniqueTable.mem_put.mpr (Or.inl rfl), hkey⟩, rfl⟩

/-- The call of `record_purge_receipt` takes effect, whether or not its result reaches the
    workflow. -/
def PurgeCalls.ReceiptLands (calls : PurgeCalls) : Prop :=
  ∀ failure, calls.receipt.failure = some failure → failure.1 = true

/-- The receipt that the run has written, or its result, says that the purge is verified. -/
def SaysVerified (purgeWorkflowId : String)
    (outcome : Except String PurgeWorkspaceResult × PurgeSystem) : Prop :=
  (outcome.2.recorded = true ∧
      ∃ row, outcome.2.receipts.find? purgeWorkflowId = some row ∧ row.verified = true) ∨
    ∃ result, outcome.1 = .ok result ∧ result.verified = true

/-- A run that has not begun. -/
def PurgeSystem.fresh (s : PurgeSystem) : PurgeSystem := { s with recorded := false }

/-- From the last count on: the receipt and the result say what the counts do, if the
    receipt is written. -/
private theorem saysVerified_receipt {input : PurgeWorkspaceInput} {purgeWorkflowId : String}
    {calls : PurgeCalls} {before after : Residue} {s : PurgeSystem}
    (result : PurgeWorkspaceResult) (hresult : result.verified = allCountsClean after)
    (hs : s.recorded = false) :
    SaysVerified purgeWorkflowId (exec (do
        executeActivity calls.receipt (recordPurgeReceipt input purgeWorkflowId before after)
        return result) s) ↔
      calls.ReceiptLands ∧ allCountsClean after = true := by
  obtain ⟨row, u, hexec, hrecorded, hrow, hverified⟩ := exec_recordPurgeReceipt input
    purgeWorkflowId before after { s with stores := calls.receipt.stores s.stores }
  unfold PurgeCalls.ReceiptLands SaysVerified
  cases hf : calls.receipt.failure with
  | none =>
    -- the receipt is written and the result returned: both say the same
    rw [exec_bind_of_ok (exec_executeActivity_eq_ok.mpr ⟨hf, hexec⟩), exec_pure]
    simp [hrecorded, hrow, hverified, hresult]
  | some failure =>
    obtain ⟨effect, error⟩ := failure
    cases effect with
    | true =>
      -- the run raises, but its receipt is on record
      rw [exec_bind_of_error (exec_executeActivity_of_effect hf hexec)]
      simp [hrecorded, hrow, hverified]
    | false =>
      -- neither a receipt nor a result
      rw [exec_bind_of_error (exec_executeActivity_of_no_effect hf)]
      simp [hs]

/-! ## Every outcome -/

/-- A purge says that it is verified exactly when it gets to its receipt with no row left
    and no object known to be left. -/
theorem saysVerified_iff (input : PurgeWorkspaceInput) (purgeWorkflowId : String)
    (calls : PurgeCalls) (s : PurgeSystem) :
    SaysVerified purgeWorkflowId (exec (purgeWorkspace input purgeWorkflowId calls) s.fresh) ↔
      (calls.Completes ∧ calls.ReceiptLands) ∧
        ¬ (calls.storesAtCount input s.stores).HasRows input ∧
        ∀ k, calls.countAfterAccess.objectCount (calls.storesAtCount input s.stores) = some k →
          k = 0 := by
  rw [purgeWorkspace_eq]
  have hkeeps := keeps_purgeAndCount input calls s.fresh
  cases h : exec (purgeAndCount input calls) s.fresh with
  | mk outcome t =>
    rw [h] at hkeeps
    cases outcome with
    | ok r =>
      obtain ⟨before, cancelled, revoked, after⟩ := r
      obtain ⟨hcompletes, hreport⟩ := completes_of_exec h
      have hclean : allCountsClean after = true ↔
          ¬ (calls.storesAtCount input s.stores).HasRows input ∧
            ∀ k, calls.countAfterAccess.objectCount (calls.storesAtCount input s.stores) =
              some k → k = 0 := allCountsClean_iff hreport
      -- the last count has been made: the rest is the receipt
      rw [exec_bind_of_ok h, ← hclean]
      refine (saysVerified_receipt _ rfl hkeeps.2).trans ?_
      simp only [hcompletes, true_and]
    | error e =>
      -- an activity before the receipt has failed, so nothing is said
      rw [exec_bind_of_error h]
      constructor
      · rintro (⟨hrecorded, -⟩ | ⟨result, hresult, -⟩)
        · rw [hkeeps.2] at hrecorded
          cases hrecorded
        · cases hresult
      · rintro ⟨⟨hcompletes, -⟩, -⟩
        obtain ⟨r, u, hr⟩ := returns_purgeAndCount input hcompletes s.fresh
        rw [h] at hr
        cases hr

/-- For every outcome of the deletes and the counts: a purge that says it is verified has
    found every store that it covers known and empty, if and only if the vector store's
    object count was obtained, a row was left in another store, or the run never got as far
    as a receipt. -/
theorem verified_sound_iff (input : PurgeWorkspaceInput) (purgeWorkflowId : String)
    (calls : PurgeCalls) (s : PurgeSystem) :
    (SaysVerified purgeWorkflowId
        (exec (purgeWorkspace input purgeWorkflowId calls) s.fresh) →
      (calls.storesAtCount input s.stores).KnownEmpty input calls.countAfterAccess) ↔
    (calls.Completes → calls.ReceiptLands →
      (calls.countAfterAccess.objectCount (calls.storesAtCount input s.stores)).isSome = true ∨
        (calls.storesAtCount input s.stores).HasRows input) := by
  rw [saysVerified_iff, knownEmpty_iff]
  -- a known object count is zero in a clean report; an unknown one may hide objects
  cases calls.countAfterAccess.objectCount (calls.storesAtCount input s.stores) with
  | none => simp
  | some k => simp

/-- The client of the vector store raises from the delete on. -/
def weaviateDown : PurgeCalls where
  collectionAccess := .raises
  countAfterAccess := .raises

/-- The delete of the collection fails, its object count is unknown, and the purge says that
    it is verified: the seven objects are still there. -/
theorem not_verified_sound_weaviateDown :
    ¬ ∀ (input : PurgeWorkspaceInput) (purgeWorkflowId : String) (calls : PurgeCalls)
      (s : PurgeSystem),
      SaysVerified purgeWorkflowId
        (exec (purgeWorkspace input purgeWorkflowId calls) s.fresh) →
      (calls.storesAtCount input s.stores).KnownEmpty input calls.countAfterAccess := by
  intro h
  have hempty := h { workspaceId := "ws", operator := "op" } "purge-ws" weaviateDown
    { stores := { rows := fun _ => 0, collection := some 7 } } (Or.inr ⟨_, rfl, rfl⟩)
  cases hempty.collection

/-! ## A purge that nothing disturbs -/

/-- No call fails, nobody else writes to the stores, and the vector store answers. -/
structure PurgeCalls.Undisturbed (calls : PurgeCalls) : Prop where
  noFailure : ∀ call ∈ calls.receipt :: calls.beforeReceipt, call.failure = none
  noWrite : ∀ call ∈ calls.receipt :: calls.beforeReceipt, call.stores = id
  countBefore : calls.countBeforeAccess ≠ .disconnected
  collection : ∃ totalCount, calls.collectionAccess = .answers totalCount
  countAfter : ∃ totalCount, calls.countAfterAccess = .answers totalCount

/-- The deletes leave nothing that is counted. -/
theorem storesAtCount_of_undisturbed {calls : PurgeCalls} (h : calls.Undisturbed)
    (input : PurgeWorkspaceInput) (s : WorkspaceStores) :
    (∀ t, (calls.storesAtCount input s).rows t = 0) ∧
      (calls.storesAtCount input s).collection = none ∧
      (input.retainAuditLogs = false → (calls.storesAtCount input s).auditLogs = 0) := by
  obtain ⟨totalCount, haccess⟩ := h.collection
  have hnoWrite := h.noWrite
  simp only [PurgeCalls.beforeReceipt, List.forall_mem_cons, List.not_mem_nil, false_imp_iff,
    implies_true, and_true] at hnoWrite
  obtain ⟨-, h₁, h₂, h₃, h₄, h₅, h₆, h₇, h₈, h₉, h₁₀⟩ := hnoWrite
  have hdelete : ∀ s : WorkspaceStores, (deleteWorkspaceCollection (.answers totalCount) s).2 =
      { s with collection := none } := fun _ => rfl
  -- what is left is what the deletes of the run leave
  unfold PurgeCalls.storesAtCount
  rw [h₁, h₂, h₃, h₄, h₅, h₆, h₇, h₈, h₉, h₁₀, haccess]
  simp only [id_eq, hdelete]
  cases hretain : input.retainAuditLogs with
  | true =>
    simp only [deleteAuditLogs, hretain, if_true]
    refine ⟨?_, rfl, nofun⟩
    intro t
    cases t <;> rfl
  | false =>
    simp only [deleteAuditLogs, hretain, Bool.false_eq_true, if_false]
    refine ⟨?_, rfl, fun _ => rfl⟩
    intro t
    cases t <;> rfl

/-- A purge that nothing disturbs leaves every store known and empty, and says so. -/
theorem verified_of_undisturbed {calls : PurgeCalls} (h : calls.Undisturbed)
    (input : PurgeWorkspaceInput) (purgeWorkflowId : String) (s : PurgeSystem) :
    SaysVerified purgeWorkflowId (exec (purgeWorkspace input purgeWorkflowId calls) s.fresh) ∧
      (calls.storesAtCount input s.stores).KnownEmpty input calls.countAfterAccess := by
  obtain ⟨hrows, hcollection, haudit⟩ := storesAtCount_of_undisturbed h input s.stores
  obtain ⟨totalCount, haccess⟩ := h.countAfter
  have hobjects : calls.countAfterAccess.objectCount (calls.storesAtCount input s.stores) =
      some 0 := by
    unfold WeaviateAccess.objectCount
    rw [haccess, hcollection]
  have hempty : (calls.storesAtCount input s.stores).KnownEmpty input calls.countAfterAccess :=
    ⟨hrows, hobjects, haudit⟩
  refine ⟨?_, hempty⟩
  rw [saysVerified_iff]
  refine ⟨⟨⟨?_, h.countBefore, ?_, ?_⟩, ?_⟩, (knownEmpty_iff.mp hempty).1, ?_⟩
  · exact fun call hcall => h.noFailure call (List.mem_cons_of_mem _ hcall)
  · obtain ⟨totalCount, hdelete⟩ := h.collection
    rw [hdelete]
    nofun
  · rw [haccess]
    nofun
  · intro failure hfailure
    rw [h.noFailure calls.receipt List.mem_cons_self] at hfailure
    cases hfailure
  · intro k hk
    rw [hobjects] at hk
    exact (Option.some.inj hk).symm

end Inherent
