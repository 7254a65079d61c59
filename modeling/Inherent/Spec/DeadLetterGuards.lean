import Inherent.ForStd.Run
import Inherent.Native.DeadLetterSystem
import Inherent.Spec.DeadLetterRetry

/-!
# Guarded dead-letter states

Every route reads the row and then writes it without looking again, so the states hold only
as long as nothing comes between the read and the write.  A step keeps them exactly when the
status that it writes goes over an unresolved one (or over itself), and when a retry starts its
run while the job is still not resolved.
-/

namespace Inherent

open EventRun

/-! ## Statuses under the statements -/

namespace DeadLetterTable

/-- Every abandoned and every resolved job keeps its status. -/
def KeepsTerminal (t t' : DeadLetterTable) : Prop :=
  ∀ id status, t.status? id = some status → status.unresolved = false →
    t'.status? id = some status

/-- The status of one job is set, and no other changes. -/
def Sets (t : DeadLetterTable) (jobId : Nat) (status : DeadLetterStatus) (t' : DeadLetterTable) :
    Prop :=
  ∀ id, t'.status? id = if id = jobId then (t.status? id).map fun _ => status else t.status? id

/-- The job is unresolved, or has the status already. -/
def MaySet (t : DeadLetterTable) (jobId : Nat) (status : DeadLetterStatus) : Prop :=
  ∀ old ∈ t.status? jobId, old.unresolved = true ∨ old = status

instance (t : DeadLetterTable) (jobId : Nat) (status : DeadLetterStatus) :
    Decidable (t.MaySet jobId status) :=
  inferInstanceAs (Decidable (∀ old ∈ t.status? jobId, _))

theorem KeepsTerminal.refl (t : DeadLetterTable) : t.KeepsTerminal t := fun _ _ h _ => h

/-- A status that is set keeps the terminal ones exactly when it may be set. -/
theorem Sets.keepsTerminal_iff {t t' : DeadLetterTable} {jobId : Nat} {status : DeadLetterStatus}
    (h : t.Sets jobId status t') : t.KeepsTerminal t' ↔ t.MaySet jobId status := by
  constructor
  · intro hkeeps old hold
    cases hunresolved : old.unresolved with
    | true => exact .inl rfl
    | false =>
      -- the job had a terminal status, and has the one that is set
      have hkept := hkeeps jobId old hold hunresolved
      rw [h jobId, if_pos rfl, hold] at hkept
      exact .inr (Option.some.inj hkept).symm
  · intro hmay id old hold hunresolved
    rw [h id]
    split
    · rename_i hid
      subst hid
      -- the job that is written was open, or the write says nothing new
      rcases hmay old hold with hopen | rfl
      · exact absurd (hunresolved.symm.trans hopen) Bool.false_ne_true
      · rw [hold]
        rfl
    · exact hold

/-- A row that is added is not resolved. -/
theorem status?_of_add {t : DeadLetterTable} {call : AddDeadLetterCall} {id : Nat}
    (h : (t.add call).1.status? id = some .resolved) : t.status? id = some .resolved := by
  obtain ⟨r, hget, hstatus⟩ := Option.map_eq_some_iff.mp h
  cases hold : t.get id with
  | some r' =>
    rw [get_add call hold] at hget
    rw [status?, hold, Option.some.inj hget, Option.map_some, hstatus]
  | none =>
    -- the row is new, so it is `pending`
    unfold add at hget
    split at hget
    · rw [hold] at hget
      cases hget
    · obtain ⟨hmem, hid⟩ := get_eq_some.mp hget
      cases UniqueTable.mem_of_mem_insertNew hmem with
      | inl hmem =>
        rw [get_eq_some.mpr ⟨hmem, hid⟩] at hold
        cases hold
      | inr hnew =>
        rw [hnew] at hstatus
        cases hstatus

/-- What is outstanding has an unresolved row. -/
theorem mem_outstanding {t : DeadLetterTable} {documentId : String} {id : Nat} :
    id ∈ t.outstanding documentId ↔
      ∃ r, t.get id = some r ∧ r.documentId = documentId ∧ r.status.unresolved = true := by
  simp only [outstanding, List.mem_map, List.mem_filter, Bool.and_eq_true, decide_eq_true_eq,
    get_eq_some]
  constructor
  · rintro ⟨r, ⟨hmem, hdoc, hopen⟩, hid⟩
    exact ⟨r, ⟨hmem, hid⟩, hdoc, hopen⟩
  · rintro ⟨r, ⟨hmem, hid⟩, hdoc, hopen⟩
    exact ⟨r, ⟨hmem, hdoc, hopen⟩, hid⟩

/-- The jobs that are resolved after a run has resolved its document. -/
theorem status?_resolveForDocument_iff {t : DeadLetterTable} {documentId : String}
    {now : Timestamp} {id : Nat} :
    (t.resolveForDocument documentId now).status? id = some .resolved ↔
      t.status? id = some .resolved ∨ id ∈ t.outstanding documentId := by
  rw [mem_outstanding, status?, resolveForDocument, get_update, status?]
  cases t.get id with
  | none => simp
  | some r =>
    by_cases hr : r.documentId = documentId ∧ r.status.unresolved = true
    · -- the row is outstanding, and is resolved
      simp [hr]
    · -- the row is left as it is
      have hr' : ¬ (r.documentId = documentId ∧ r.status.unresolved = true) := hr
      simp only [Option.map_some, if_neg hr, Option.some.injEq]
      refine ⟨.inl, fun h => h.resolve_right ?_⟩
      rintro ⟨r', rfl, h⟩
      exact hr' h

end DeadLetterTable

/-! ## What the trigger does -/

/-- The table is left, or takes one row. -/
def DeadLetterTable.AddsAtMostOne (t t' : DeadLetterTable) : Prop :=
  t' = t ∨ ∃ call, t' = (t.add call).1

private theorem jobs_deadLetterPoison (c : TriggerConfig) (f : RetryFaults) (message : Message)
    (s : RetryState) : s.jobs.AddsAtMostOne (deadLetterPoison c f message s).jobs := by
  unfold deadLetterPoison
  split
  · rename_i call hcall
    split
    · exact .inr ⟨call, rfl⟩
    · exact .inl rfl
  · exact .inl rfl

private theorem jobs_startWorkflow (c : TriggerConfig) (f : RetryFaults)
    (input : DocumentIngestionInput) (s : RetryState) :
    (startWorkflow c f input s).1.jobs = s.jobs := by
  unfold startWorkflow
  dsimp only
  split
  · rfl
  · split
    · rfl
    · dsimp only
      split <;> rfl

/-- A retry's trigger adds a row at most for poison. -/
theorem jobs_triggerWorkflowAsync (c : TriggerConfig) (f : RetryFaults) (message : Message)
    (s : RetryState) : s.jobs.AddsAtMostOne (triggerWorkflowAsync c f message s).1.jobs := by
  unfold triggerWorkflowAsync
  split
  · exact .inl rfl
  · split
    · -- the payload is not parsed: it is recorded as poison
      exact jobs_deadLetterPoison c f message s
    · split
      · exact .inl rfl
      · exact .inl (jobs_startWorkflow ..)

theorem jobs_deliverUpload (c : TriggerConfig) (f : RetryFaults) (message : Message)
    (s : RetryState) : s.jobs.AddsAtMostOne (deliverUpload c f message s).jobs := by
  unfold deliverUpload
  split
  · exact jobs_deadLetterPoison c f message s
  · exact .inl rfl

/-- The trigger is reached, the payload is parsed, no run of the document is open, and the start
    takes effect. -/
def starts (c : TriggerConfig) (f : RetryFaults) (message : Message) (s : RetryState) : Bool :=
  f.connect = .ok && f.ownerLookup = .ok && f.startWorkflow.landed &&
    (DocumentUploadMessage.parse c.pydantic message).any fun m =>
      !s.runs.any fun run => run.workflowId = (runFor c m).workflowId && run.isOpen

private theorem runs_deadLetterPoison (c : TriggerConfig) (f : RetryFaults) (message : Message)
    (s : RetryState) : (deadLetterPoison c f message s).runs = s.runs := by
  unfold deadLetterPoison
  split
  · split <;> rfl
  · rfl

/-- A run is started when none of the document is open and the start takes effect. -/
private theorem runs_startWorkflow_ne_iff (c : TriggerConfig) (f : RetryFaults)
    (input : DocumentIngestionInput) (s : RetryState) :
    (startWorkflow c f input s).1.runs ≠ s.runs ↔
      (s.runs.any fun run => run.workflowId = ingestWorkflowId input.documentId && run.isOpen) =
        false ∧ f.startWorkflow.landed = true := by
  unfold startWorkflow
  dsimp only
  -- Temporal starts no second run with the id of an open one
  cases hopen : s.runs.any fun run =>
    run.workflowId = ingestWorkflowId input.documentId && run.isOpen with
  | true => simp
  | false =>
    cases f.startWorkflow with
    | ok => simp [CallOutcome.landed]
    | raised landed error => cases landed <;> simp [CallOutcome.landed]

/-- A retry's trigger starts a run exactly then. -/
theorem runs_triggerWorkflowAsync_ne_iff (c : TriggerConfig) (f : RetryFaults) (message : Message)
    (s : RetryState) :
    (triggerWorkflowAsync c f message s).1.runs ≠ s.runs ↔ starts c f message s = true := by
  unfold triggerWorkflowAsync starts
  cases hconnect : f.connect with
  | raised landed error => simp
  | ok =>
    cases hparse : DocumentUploadMessage.parse c.pydantic message with
    | none => simp [runs_deadLetterPoison]
    | some m =>
      cases howner : f.ownerLookup with
      | raised landed error => simp
      | ok =>
        have hstart := runs_startWorkflow_ne_iff c f (c.uploads.workflowInput m) s
        have hid : (runFor c m).workflowId =
            ingestWorkflowId (c.uploads.workflowInput m).documentId := rfl
        -- the open run that refuses the start is one of the same document
        simpa [hid, and_comm] using hstart

/-! ## What a step does -/

namespace DeadLetterSystem

/-- The status that an event writes over the row of a job. -/
def write? (s : DeadLetterSystem) : DeadLetterEvent → Option (Nat × DeadLetterStatus)
  | .increment k outcome =>
    match s.requests[k]? with
    | some (.retry job) => if outcome.landed then some (job.id, .retrying) else none
    | _ => none
  | .reset k outcome =>
    match s.requests[k]? with
    | some (.failed job) => if outcome.landed then some (job.id, .pending) else none
    | _ => none
  | .abandon k outcome =>
    match s.requests[k]? with
    | some (.abandon jobId) => if outcome.landed then some (jobId, .abandoned) else none
    | _ => none
  | _ => none

/-- The job for which an event starts a run. -/
def startedJob? (c : TriggerConfig) (s : DeadLetterSystem) : DeadLetterEvent → Option Nat
  | .trigger k f =>
    match s.requests[k]? with
    | some (.incremented job) =>
      if starts c f job.originalMessage s.toRetryState then some job.id else none
    | _ => none
  | _ => none

/-- What one step may do with the jobs. -/
inductive Effect (s : DeadLetterSystem) (e : DeadLetterEvent) (s' : DeadLetterSystem) : Prop where
  | added (hwrite : s.write? e = none) (hjobs : s.jobs.AddsAtMostOne s'.jobs)
      (hresolved : s'.resolvedJobs = s.resolvedJobs)
  | set (jobId : Nat) (status : DeadLetterStatus) (hwrite : s.write? e = some (jobId, status))
      (hstatus : status ≠ .resolved) (hjobs : s.jobs.Sets jobId status s'.jobs)
      (hresolved : s'.resolvedJobs = s.resolvedJobs)
  | resolved (documentId : String) (now : Timestamp) (hwrite : s.write? e = none)
      (hjobs : s'.jobs = s.jobs.resolveForDocument documentId now)
      (hresolved : s'.resolvedJobs = s.resolvedJobs ++ s.jobs.outstanding documentId)

/-- A call that takes effect or not. -/
private theorem effect_write {s s' : DeadLetterSystem} {e : DeadLetterEvent} {jobId : Nat}
    {status : DeadLetterStatus} {outcome : CallOutcome} {f : DeadLetterTable → DeadLetterTable}
    (hwrite : s.write? e = if outcome.landed then some (jobId, status) else none)
    (hstatus : status ≠ .resolved) (hsets : s.jobs.Sets jobId status (f s.jobs))
    (hjobs : s'.jobs = (s.write outcome f).jobs)
    (hresolved : s'.resolvedJobs = (s.write outcome f).resolvedJobs) : Effect s e s' := by
  unfold write at hjobs hresolved
  cases hlanded : outcome.landed with
  | true =>
    rw [hlanded, if_pos rfl] at hwrite hjobs hresolved
    exact .set jobId status hwrite hstatus (hjobs ▸ hsets) hresolved
  | false =>
    rw [hlanded, if_neg Bool.false_ne_true] at hwrite hjobs hresolved
    exact .added hwrite (.inl hjobs) hresolved

/-- A run that comes to its result leaves the table. -/
private theorem effect_finish {s s' : DeadLetterSystem} {e : DeadLetterEvent} {i : Nat}
    {result : DocumentIngestionInput → Option AddDeadLetterCall} (hwrite : s.write? e = none)
    (h : s.finish i result = some s') : Effect s e s' := by
  unfold finish at h
  split at h
  · split at h
    · obtain rfl := Option.some.inj h
      exact .added hwrite (.inl rfl) rfl
    · cases h
  · cases h

theorem effect_of_step {c : TriggerConfig} {s s' : DeadLetterSystem} {e : DeadLetterEvent}
    (h : step c s e = some s') : Effect s e s' := by
  cases e with
  | deliver message f =>
    obtain rfl := Option.some.inj h
    exact .added rfl (jobs_deliverUpload c f message _) rfl
  | readRetry jobId workspaceId =>
    simp only [step] at h
    -- admitted or not, the request has only read the table
    split at h
    · obtain rfl := Option.some.inj h
      exact .added rfl (.inl rfl) rfl
    · obtain rfl := Option.some.inj h
      exact .added rfl (.inl rfl) rfl
  | increment k outcome =>
    simp only [step] at h
    split at h
    · rename_i job hrequest
      obtain rfl := Option.some.inj h
      have hsets : s.jobs.Sets job.id .retrying (s.jobs.incrementRetry job.id) :=
        DeadLetterTable.status?_incrementRetry s.jobs job.id
      exact effect_write (by simp only [write?, hrequest]) (by decide) hsets rfl rfl
    · cases h
  | trigger k f =>
    simp only [step] at h
    split at h
    · rename_i job hrequest
      have hjobs := jobs_triggerWorkflowAsync c f job.originalMessage s.toRetryState
      -- the job is written by a later `reset` at most, not by the trigger
      split at h
      · rename_i s₁ workflowId htrigger
        obtain rfl := Option.some.inj h
        rw [htrigger] at hjobs
        exact .added rfl hjobs rfl
      · rename_i s₁ error htrigger
        obtain rfl := Option.some.inj h
        rw [htrigger] at hjobs
        exact .added rfl hjobs rfl
    · cases h
  | reset k outcome =>
    simp only [step] at h
    split at h
    · rename_i job hrequest
      obtain rfl := Option.some.inj h
      have hsets : s.jobs.Sets job.id .pending (s.jobs.updateStatus job.id .pending) :=
        fun id => DeadLetterTable.status?_updateStatus s.jobs job.id id .pending
      exact effect_write (by simp only [write?, hrequest]) (by decide) hsets rfl rfl
    · cases h
  | readAbandon jobId workspaceId =>
    simp only [step] at h
    split at h
    · obtain rfl := Option.some.inj h
      exact .added rfl (.inl rfl) rfl
    · obtain rfl := Option.some.inj h
      exact .added rfl (.inl rfl) rfl
  | abandon k outcome =>
    simp only [step] at h
    split at h
    · rename_i jobId hrequest
      obtain rfl := Option.some.inj h
      have hsets : s.jobs.Sets jobId .abandoned (s.jobs.updateStatus jobId .abandoned) :=
        fun id => DeadLetterTable.status?_updateStatus s.jobs jobId id .abandoned
      exact effect_write (by simp only [write?, hrequest]) (by decide) hsets rfl rfl
    · cases h
  | succeed i =>
    simp only [step] at h
    exact effect_finish rfl h
  | fail i workflowRunId errorMessage =>
    simp only [step] at h
    exact effect_finish rfl h
  | resolve i now =>
    simp only [step] at h
    split at h
    · rename_i run hrun hresult
      obtain rfl := Option.some.inj h
      exact .resolved run.input.documentId now rfl rfl rfl
    · cases h
  | record i =>
    simp only [step] at h
    split at h
    · rename_i call hresult
      obtain rfl := Option.some.inj h
      exact .added rfl (.inr ⟨call, rfl⟩) rfl
    · cases h
  | close i =>
    obtain rfl := Option.some.inj h
    exact .added rfl (.inl rfl) rfl
  | recordFlush job =>
    obtain rfl := Option.some.inj h
    exact .added rfl (.inr ⟨job.deadLetter, rfl⟩) rfl

/-- The resolved jobs are those that a successful run of their document has resolved. -/
def Consistent (s : DeadLetterSystem) : Prop :=
  ∀ id, id ∈ s.resolvedJobs ↔ s.jobs.status? id = some .resolved

/-- A step writes a status that it may write, and starts no run for a resolved job. -/
def Checked (s : DeadLetterSystem) (c : TriggerConfig) (e : DeadLetterEvent) : Prop :=
  (∀ w ∈ s.write? e, s.jobs.MaySet w.1 w.2) ∧
    ∀ jobId ∈ s.startedJob? c e, s.jobs.status? jobId ≠ some .resolved

instance (c : TriggerConfig) (s : DeadLetterSystem) (e : DeadLetterEvent) :
    Decidable (s.Checked c e) :=
  inferInstanceAs (Decidable (_ ∧ _))

/-- A step keeps the abandoned and the resolved jobs, and a retry starts no run for a job that
    a successful run of its document has resolved. -/
structure Guarded (s : DeadLetterSystem) (c : TriggerConfig) (e : DeadLetterEvent) : Prop where
  terminal : ∀ s' ∈ step c s e, s.jobs.KeepsTerminal s'.jobs
  noStaleStart : ∀ k f job, e = .trigger k f → s.requests[k]? = some (.incremented job) →
    ∀ s' ∈ step c s e, s'.runs ≠ s.runs → job.id ∉ s.resolvedJobs

/-! ## The iff, step by step -/

private theorem keepsTerminal_of_added {t t' : DeadLetterTable} (h : t.AddsAtMostOne t') :
    t.KeepsTerminal t' := by
  obtain rfl | ⟨call, rfl⟩ := h
  · exact .refl t'
  · exact fun _ _ hold _ => DeadLetterTable.status?_add call hold

/-- A step keeps the terminal jobs exactly when it may write what it writes. -/
private theorem keepsTerminal_iff {c : TriggerConfig} {s s' : DeadLetterSystem}
    {e : DeadLetterEvent} (h : step c s e = some s') :
    s.jobs.KeepsTerminal s'.jobs ↔ ∀ w ∈ s.write? e, s.jobs.MaySet w.1 w.2 := by
  cases effect_of_step h with
  | added hwrite hjobs _ =>
    rw [hwrite]
    exact iff_of_true (keepsTerminal_of_added hjobs) (by simp)
  | set jobId status hwrite _ hjobs _ =>
    rw [hjobs.keepsTerminal_iff, hwrite]
    simp
  | resolved documentId now hwrite hjobs _ =>
    rw [hwrite, hjobs]
    refine iff_of_true ?_ (by simp)
    exact fun _ _ hold hunresolved => DeadLetterTable.status?_resolveForDocument hold hunresolved

/-- A step that keeps the terminal jobs keeps the two notions of a resolved job together. -/
private theorem consistent_of_step {c : TriggerConfig} {s s' : DeadLetterSystem}
    {e : DeadLetterEvent} (hs : s.Consistent) (hkeeps : s.jobs.KeepsTerminal s'.jobs)
    (h : step c s e = some s') : s'.Consistent := by
  have hkept : ∀ id, s.jobs.status? id = some .resolved → s'.jobs.status? id = some .resolved :=
    fun id hid => hkeeps id .resolved hid rfl
  intro id
  cases effect_of_step h with
  | added _ hjobs hresolved =>
    rw [hresolved, hs id]
    refine ⟨hkept id, fun hid => ?_⟩
    -- a row that is added is `pending`, so no job is resolved by it
    obtain hsame | ⟨call, hadd⟩ := hjobs
    · exact hsame ▸ hid
    · rw [hadd] at hid
      exact DeadLetterTable.status?_of_add hid
  | set jobId status _ hstatus hjobs hresolved =>
    rw [hresolved, hs id]
    refine ⟨hkept id, fun hid => ?_⟩
    rw [hjobs id] at hid
    -- the status that is set is not `resolved`, so the job is another one
    split at hid
    · obtain ⟨_, _, heq⟩ := Option.map_eq_some_iff.mp hid
      exact absurd heq hstatus
    · exact hid
  | resolved documentId now _ hjobs hresolved =>
    rw [hresolved, hjobs, List.mem_append, hs id,
      DeadLetterTable.status?_resolveForDocument_iff]

/-- The run that an event starts for a job. -/
private theorem startedJob?_eq_some {c : TriggerConfig} {s s' : DeadLetterSystem} {k : Nat}
    {f : RetryFaults} {job : DeadLetterRow} (hrequest : s.requests[k]? = some (.incremented job))
    (h : step c s (.trigger k f) = some s') :
    s.startedJob? c (.trigger k f) = if s'.runs ≠ s.runs then some job.id else none := by
  have hruns := runs_triggerWorkflowAsync_ne_iff c f job.originalMessage s.toRetryState
  -- whether the trigger returns or raises, the runs are those that it leaves
  have hs' : s'.runs = (triggerWorkflowAsync c f job.originalMessage s.toRetryState).1.runs := by
    simp only [step, hrequest] at h
    split at h
    · rename_i s₁ workflowId htrigger
      obtain rfl := Option.some.inj h
      rw [htrigger]
      rfl
    · rename_i s₁ error htrigger
      obtain rfl := Option.some.inj h
      rw [htrigger]
      rfl
  simp only [startedJob?, hrequest, hs']
  exact if_congr hruns.symm rfl rfl

/-- From a consistent state a step is guarded exactly when it is checked. -/
private theorem guarded_iff_checked {c : TriggerConfig} {s s' : DeadLetterSystem}
    {e : DeadLetterEvent} (hs : s.Consistent) (h : step c s e = some s') :
    s.Guarded c e ↔ s.Checked c e := by
  constructor
  · intro hguarded
    refine ⟨(keepsTerminal_iff h).mp (hguarded.terminal s' h), fun jobId hjob hresolved => ?_⟩
    -- only the trigger of a request that has incremented its job starts a run for it
    unfold startedJob? at hjob
    split at hjob
    · rename_i k f
      split at hjob
      · rename_i job hrequest
        have hstarted := startedJob?_eq_some hrequest h
        split at hjob
        · rename_i hstarts
          obtain rfl := Option.some.inj hjob
          simp only [startedJob?, hrequest, hstarts, if_true] at hstarted
          refine hguarded.noStaleStart k f job rfl hrequest s' h ?_ ((hs job.id).mpr hresolved)
          -- an event that starts a run has changed the runs
          intro heq
          rw [if_neg (not_not.mpr heq)] at hstarted
          cases hstarted
        · cases hjob
      · cases hjob
    · cases hjob
  · rintro ⟨hwrite, hstart⟩
    refine ⟨fun t ht => (keepsTerminal_iff ht).mpr hwrite, ?_⟩
    rintro k f job rfl hrequest t ht hne hresolved
    refine hstart job.id ?_ ((hs job.id).mp hresolved)
    rw [startedJob?_eq_some hrequest ht, if_pos hne]
    rfl

/-- A guarded step keeps the state consistent. -/
private theorem consistent_of_guarded {c : TriggerConfig} {s s' : DeadLetterSystem}
    {e : DeadLetterEvent} (hs : s.Consistent) (hguarded : s.Guarded c e)
    (h : step c s e = some s') : s'.Consistent :=
  consistent_of_step hs (hguarded.terminal s' h) h

/-- In every run from the empty table, the steps are all guarded exactly when they are all
    checked. -/
theorem allSteps_guarded_iff (c : TriggerConfig) {s : DeadLetterSystem}
    {es : List DeadLetterEvent} (hrun : exec (step c) { jobs := {} } es = some s) :
    AllSteps (step c) (fun s e => s.Guarded c e) { jobs := {} } es ↔
      AllSteps (step c) (fun s e => s.Checked c e) { jobs := {} } es := by
  have hempty : Consistent { jobs := {} } := fun id => iff_of_false List.not_mem_nil nofun
  -- both conditions keep the state consistent, and in a consistent state they agree
  constructor
  · intro hall
    refine allSteps_imp_of_invariant (I := Consistent) ?_ ?_ hempty hall hrun
    · exact fun s e s' hs hguarded h => consistent_of_guarded hs hguarded h
    · exact fun s e s' hs hguarded h => (guarded_iff_checked hs h).mp hguarded
  · intro hall
    refine allSteps_imp_of_invariant (I := Consistent) ?_ ?_ hempty hall hrun
    · exact fun s e s' hs hchecked h =>
        consistent_of_guarded hs ((guarded_iff_checked hs h).mpr hchecked) h
    · exact fun s e s' hs hchecked h => (guarded_iff_checked hs h).mpr hchecked

/-- So in a run of checked steps an abandoned or resolved job keeps its status to the end. -/
theorem status?_of_allSteps_checked {c : TriggerConfig} {s s' : DeadLetterSystem}
    {es : List DeadLetterEvent} {id : Nat} {status : DeadLetterStatus}
    (hstatus : s.jobs.status? id = some status) (hunresolved : status.unresolved = false)
    (hall : AllSteps (step c) (fun s e => s.Checked c e) s es)
    (hrun : exec (step c) s es = some s') : s'.jobs.status? id = some status := by
  refine exec_invariant_of_allSteps (I := fun s => s.jobs.status? id = some status) ?_ hstatus hall
    hrun
  exact fun s e s' hs hchecked h => (keepsTerminal_iff h).mpr hchecked.1 id status hs hunresolved

/-! ## Runs -/

/-- A document fails and is retried. -/
def failAndRetry : List DeadLetterEvent :=
  [.deliver memberUpload.reconstructOriginalMessage {}, .fail 0 "run-0" "timeout", .record 0,
    .close 0, .readRetry 0 "ws", .increment 0 .ok, .trigger 0 {}, .succeed 1, .resolve 1 1,
    .close 1]

/-- It is then uploaded once more, fails again, and its second job is abandoned. -/
def retriedOnce : List DeadLetterEvent :=
  failAndRetry ++ [.deliver memberUpload.reconstructOriginalMessage {}, .fail 2 "run-2" "timeout",
    .record 2, .record 2, .close 2, .readAbandon 1 "ws", .abandon 1 .ok]

theorem guarded_retriedOnce :
    AllSteps (step sampleTrigger) (fun s e => s.Guarded sampleTrigger e) { jobs := {} }
      retriedOnce := by
  obtain ⟨s, hrun⟩ := Option.isSome_iff_exists.mp
    (by decide : (exec (step sampleTrigger) { jobs := {} } retriedOnce).isSome = true)
  exact (allSteps_guarded_iff sampleTrigger hrun).mpr (by decide)

/-- A second request has read the row before the first one's run resolves it. -/
def retriedTwice : List DeadLetterEvent :=
  [.deliver memberUpload.reconstructOriginalMessage {}, .fail 0 "run-0" "timeout", .record 0,
    .close 0, .readRetry 0 "ws", .readRetry 0 "ws", .increment 0 .ok, .trigger 0 {}, .succeed 1,
    .resolve 1 1, .close 1]

/-- It makes the resolved job `retrying` and starts a run with its payload. -/
theorem not_guarded_retriedTwice :
    ((exec (step sampleTrigger) { jobs := {} } retriedTwice).map fun s =>
        (s.jobs.status? 0, s.runs.length)) = some (some .resolved, 2) ∧
      ((exec (step sampleTrigger) { jobs := {} }
          (retriedTwice ++ [.increment 1 .ok, .trigger 1 {}])).map fun s =>
        (s.jobs.status? 0, s.runs.length)) = some (some .retrying, 3) ∧
      ¬ AllSteps (step sampleTrigger) (fun s e => s.Guarded sampleTrigger e) { jobs := {} }
        (retriedTwice ++ [.increment 1 .ok, .trigger 1 {}]) := by
  refine ⟨by decide, by decide, fun hall => ?_⟩
  obtain ⟨s, hrun⟩ := Option.isSome_iff_exists.mp
    (by decide : (exec (step sampleTrigger) { jobs := {} } retriedTwice).isSome = true)
  have hresolved : ((exec (step sampleTrigger) { jobs := {} } retriedTwice).map fun s =>
      s.jobs.status? 0) = some (some .resolved) := by decide
  have hretrying : (((exec (step sampleTrigger) { jobs := {} } retriedTwice).bind fun s =>
      step sampleTrigger s (.increment 1 .ok)).map fun s => s.jobs.status? 0) =
        some (some .retrying) := by decide
  rw [hrun] at hresolved hretrying
  obtain ⟨s', hstep, hs'⟩ := Option.map_eq_some_iff.mp hretrying
  -- the second increment is a step that is not guarded
  have hguarded := ((allSteps_cons hstep).mp ((allSteps_append hrun).mp hall).2).1
  have hkept := hguarded.terminal s' hstep 0 .resolved (Option.some.inj hresolved) rfl
  rw [hs'] at hkept
  cases hkept

end DeadLetterSystem

end Inherent
