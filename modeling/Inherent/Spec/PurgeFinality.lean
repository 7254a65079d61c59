import Inherent.ForStd.Run
import Inherent.Native.PurgedWorkspace

/-!
# What comes back after a purge

The purge marker stops one activity only, `ensure_tenant_ready`, and the cancellation reaches
ingestions only, which record a dead letter when they are cancelled.  So what a verified purge
has emptied stays empty as long as every run has come to its end by then, or still waits for
the marker, and no attempt is under way that writes past it.
-/

namespace Inherent

open EventRun

/-! ## Settled runs -/

/-- The ingestion is past its last activity that writes to the stores. -/
def IngestionRun.settled (run : IngestionRun) : Bool :=
  match run.stage with
  | .storing .resolveDeadLetterJobs => true
  | .storing (.publishCompletion _) => true
  | .storing (.cleanupStaging _) => true
  | .storing (.ended _) => true
  | _ => false

/-- The conversation is past its last flush. -/
def ConversationRun.finalized (run : ConversationRun) : Bool :=
  match run.await with
  | .publishCompletion => true
  | .ended .completed => true
  | .ended (.failed _) => true
  | _ => false

/-- The conversation has not got its tenant yet. -/
def ConversationRun.queued (run : ConversationRun) : Bool :=
  match run.await with
  | .notStarted => run.input.tenantId = none
  | .ensureTenantReady => true
  | _ => false

/-- The run schedules nothing any more that gets past the purge marker; `admitted` says that an
    attempt of its has returned a tenant. -/
def WorkspaceRun.settled (r : WorkspaceRun) (admitted : Bool) : Bool :=
  (r.flow.isClosed || r.leftovers.isEmpty) &&
    match r.flow with
    | .ingestion run => run.settled
    | .conversation run => run.finalized || run.queued && !admitted

/-- The attempt is over, or is stopped by the purge marker. -/
def WriterAttempt.harmless (a : WriterAttempt) : Bool :=
  match a.phase, a.activity with
  | .finished _, _ => true
  | .raised, _ => true
  | .started, .ensureTenantReady _ => true
  | _, _ => false

/-- The attempt has returned a tenant. -/
def WriterPhase.isTenant : WriterPhase → Bool
  | .finished (.tenant _) => true
  | _ => false

namespace PurgedWorkspace

/-- An attempt of the run has returned a tenant. -/
def admitted (s : PurgedWorkspace) (k : Nat) : Bool :=
  s.attempts.any fun a => a.run = k && a.phase.isTenant

/-- Every run has come to its end or waits for the purge marker, and every attempt. -/
def settled (s : PurgedWorkspace) : Bool :=
  s.attempts.all WriterAttempt.harmless &&
    s.runs.zipIdx.all fun p => p.1.settled (s.admitted p.2)

/-- A purge that returns `verified=True` leaves a settled workspace. -/
def returnsSettled (s : PurgedWorkspace) : PurgedEvent → Bool
  | .purgeNext => (s.purgeNext.any fun t => t.purge.verified) → s.settled
  | _ => true

/-- Nothing is created after the purge has returned `verified=True`. -/
def Final (s : PurgedWorkspace) (e : PurgedEvent) : Prop :=
  s.purge.verified = true → s.created e = []

instance (s : PurgedWorkspace) (e : PurgedEvent) : Decidable (s.Final e) :=
  inferInstanceAs (Decidable (_ → _))

theorem settled_iff {s : PurgedWorkspace} :
    s.settled = true ↔ (∀ a ∈ s.attempts, a.harmless = true) ∧
      ∀ k (r : WorkspaceRun), s.runs[k]? = some r → r.settled (s.admitted k) = true := by
  unfold settled
  rw [Bool.and_eq_true, List.all_eq_true, List.all_eq_true]
  constructor
  · intro h
    refine ⟨h.1, ?_⟩
    intro k r hr
    have hmem : (r, k) ∈ s.runs.zipIdx := List.mem_zipIdx_iff_getElem?.mpr hr
    exact h.2 (r, k) hmem
  · intro h
    refine ⟨h.1, ?_⟩
    intro p hp
    exact h.2 p.2 p.1 (List.mem_zipIdx_iff_getElem?.mp hp)

end PurgedWorkspace

/-! ## The steps of settled runs -/

namespace WriterAttempt

/-- A harmless attempt creates nothing; all it can do is to raise. -/
theorem effect_of_harmless {a : WriterAttempt} (ha : a.harmless = true) {workspaceId : String}
    {purgeStatus : Option PurgeStatus} (hstatus : purgeStatus.isSome = true)
    {staging : RunId → Option (List StagedChunk)} {t : WorkspaceTables}
    {caches : WeaviateCaches} {step : AttemptStep} {effect : AttemptEffect}
    (h : a.step workspaceId purgeStatus staging t caches step = some effect) :
    effect.created = [] ∧ effect.attempt = { a with phase := .raised } := by
  obtain ⟨run, worker, activity, phase⟩ := a
  obtain ⟨status, rfl⟩ := Option.isSome_iff_exists.mp hstatus
  cases phase with
  | started =>
    cases activity with
    | ensureTenantReady userId =>
      -- the check refuses it, and nothing else comes first
      cases step <;> simp [WriterAttempt.step, ensure, write] at h
      all_goals
        obtain rfl := h
        exact ⟨rfl, rfl⟩
    | _ => cases ha
  | finished output => cases step <;> cases activity <;> cases h
  | raised => cases step <;> cases activity <;> cases h
  | _ => cases activity <;> cases ha

end WriterAttempt

/-- A settled ingestion stays settled, and has no step once it is closed. -/
theorem IngestionRun.settled_step {run run' : IngestionRun} {e : IngestionResume}
    (h : run.settled = true) (hstep : run.step e = some run') :
    run'.settled = true ∧ run.ended = false := by
  obtain ⟨origin, stage, tenantId, textLength, processingTimeMs⟩ := run
  cases stage with
  | storing await =>
    cases await with
    | resolveDeadLetterJobs | publishCompletion error | cleanupStaging error =>
      -- what it awaits is best-effort, and a cancellation leads to the end as well
      cases e with
      | bestEffort result =>
        obtain rfl := Option.some.inj hstep
        exact ⟨rfl, rfl⟩
      | cancelled activityError =>
        cases activityError <;>
          (obtain rfl := Option.some.inj hstep; exact ⟨rfl, rfl⟩)
      | _ => simp [IngestionRun.step] at hstep
    | ended error =>
      cases e with
      | cancelled activityError => cases activityError <;> cases hstep
      | _ => simp [IngestionRun.step, IngestionAwait.afterBestEffort] at hstep
    | _ => cases h
  | _ => cases h

/-- A settled ingestion is not at its stores. -/
theorem IngestionRun.awaited_of_settled {run : IngestionRun} (h : run.settled = true) :
    run.awaited = [] := by
  obtain ⟨origin, stage, tenantId, textLength, processingTimeMs⟩ := run
  cases stage with
  | storing await => cases await <;> first | rfl | cases h
  | _ => cases h

namespace ConversationRun

/-- Time passes, and nothing else. -/
theorem eq_of_tick {run run' : ConversationRun} {now : Timestamp}
    (h : run.step (.tick now) = some run') : run' = { run with now := now } := by
  simp only [step] at h
  split at h
  · exact (Option.some.inj h).symm
  · cases h

/-- A finalized conversation stays finalized. -/
theorem finalized_step {run run' : ConversationRun} {e : WorkflowEvent}
    (h : run.finalized = true) (hstep : run.step e = some run') : run'.finalized = true := by
  obtain ⟨self, input, workflowRunId, now, turns, await⟩ := run
  cases await with
  | publishCompletion =>
    cases e with
    | addTurn turn | close | publishCompletion result =>
      obtain rfl := Option.some.inj hstep
      rfl
    | tick now =>
      obtain rfl := eq_of_tick hstep
      rfl
    | _ => cases hstep
  | ended outcome =>
    cases e with
    | tick now =>
      obtain rfl := eq_of_tick hstep
      exact h
    | _ => cases hstep
  | _ => cases h

/-- A queued conversation that gets no tenant stays queued, or fails. -/
theorem queued_step {run run' : ConversationRun} {e : WorkflowEvent}
    (h : run.queued = true) (hstep : run.step e = some run')
    (htenant : ∀ tenantId, e ≠ .ensureTenantReady (.ok tenantId)) :
    run'.finalized = true ∨ run'.queued = true := by
  obtain ⟨self, input, workflowRunId, now, turns, await⟩ := run
  cases await with
  | notStarted =>
    cases e with
    | start =>
      -- `run` asks for the tenant that its input does not have
      have hinput : input.tenantId = none := of_decide_eq_true h
      obtain rfl := Option.some.inj hstep
      exact Or.inr (by simp [begin, ConversationMemoryWorkflow.begin, hinput, queued])
    | addTurn turn | close =>
      obtain rfl := Option.some.inj hstep
      exact Or.inr h
    | tick now =>
      obtain rfl := eq_of_tick hstep
      exact Or.inr h
    | ensureTenantReady result => cases result <;> cases hstep
    | _ => cases hstep
  | ensureTenantReady =>
    cases e with
    | ensureTenantReady result =>
      cases result with
      | ok tenantId => exact absurd rfl (htenant tenantId)
      | failed error =>
        obtain rfl := Option.some.inj hstep
        exact Or.inl rfl
    | addTurn turn | close =>
      obtain rfl := Option.some.inj hstep
      exact Or.inr rfl
    | tick now =>
      obtain rfl := eq_of_tick hstep
      exact Or.inr rfl
    | _ => cases hstep
  | _ => cases h

/-- A closed conversation stays closed. -/
theorem isClosed_step {run run' : ConversationRun} {e : WorkflowEvent}
    (h : run.isClosed = true) (hstep : run.step e = some run') : run'.isClosed = true := by
  obtain ⟨self, input, workflowRunId, now, turns, await⟩ := run
  cases await with
  | ended outcome =>
    cases e with
    | tick now =>
      obtain rfl := eq_of_tick hstep
      rfl
    | _ => cases hstep
  | _ => cases h

/-- A finalized or queued conversation awaits no activity but `ensure_tenant_ready`. -/
theorem awaited_of_settled {run : ConversationRun} (h : run.finalized = true ∨ run.queued = true) :
    ∀ a ∈ run.awaited, ∃ userId, a = .ensureTenantReady userId := by
  obtain ⟨self, input, workflowRunId, now, turns, await⟩ := run
  intro a ha
  cases await with
  | ensureTenantReady => exact ⟨_, List.mem_singleton.mp ha⟩
  | notStarted | publishCompletion | ended outcome => cases ha
  | _ => rcases h with h | h <;> cases h

/-- A store does not fail then. -/
theorem not_store_of_settled {run run' : ConversationRun}
    (h : run.finalized = true ∨ run.queued = true) (target : StoreTarget)
    (result : ActivityResult StoreDocumentOutput) : run.step (.store target result) ≠ some run' := by
  obtain ⟨self, input, workflowRunId, now, turns, await⟩ := run
  intro hstep
  cases await with
  | ensureTenantReady | notStarted | publishCompletion | ended outcome => cases hstep
  | _ => rcases h with h | h <;> cases h

end ConversationRun

namespace WorkspaceRun

variable {r r' : WorkspaceRun} {admitted : Bool}

theorem settled_ingestion_iff {run : IngestionRun} (hflow : r.flow = .ingestion run) :
    r.settled admitted = true ↔
      (r.flow.isClosed = true ∨ r.leftovers = []) ∧ run.settled = true := by
  simp only [settled, hflow, Bool.and_eq_true, Bool.or_eq_true, List.isEmpty_iff]

theorem settled_conversation_iff {run : ConversationRun} (hflow : r.flow = .conversation run) :
    r.settled admitted = true ↔ (r.flow.isClosed = true ∨ r.leftovers = []) ∧
      (run.finalized = true ∨ run.queued = true ∧ admitted = false) := by
  simp only [settled, hflow, Bool.and_eq_true, Bool.or_eq_true, List.isEmpty_iff,
    Bool.not_eq_true']

/-- A settled run awaits no activity but `ensure_tenant_ready`. -/
theorem awaited_of_settled (h : r.settled admitted = true) :
    ∀ a ∈ r.flow.awaited, ∃ userId, a = .ensureTenantReady userId := by
  intro a ha
  cases hflow : r.flow with
  | ingestion run =>
    rw [settled_ingestion_iff hflow] at h
    rw [hflow, WorkspaceFlow.awaited, IngestionRun.awaited_of_settled h.2] at ha
    cases ha
  | conversation run =>
    rw [settled_conversation_iff hflow] at h
    rw [hflow] at ha
    exact ConversationRun.awaited_of_settled (h.2.imp_right And.left) a ha

/-- A settled run schedules no activity but `ensure_tenant_ready`. -/
theorem scheduled_of_settled (h : r.settled admitted = true) :
    ∀ a ∈ r.scheduled, ∃ userId, a = .ensureTenantReady userId := by
  intro a ha
  have hopen : r.flow.isClosed = true ∨ r.leftovers = [] := by
    cases hflow : r.flow with
    | ingestion run => exact hflow ▸ ((settled_ingestion_iff hflow).mp h).1
    | conversation run => exact hflow ▸ ((settled_conversation_iff hflow).mp h).1
  unfold scheduled at ha
  split at ha
  · cases ha
  · rename_i hclosed
    rw [hopen.resolve_left hclosed, List.append_nil] at ha
    exact awaited_of_settled h a ha

/-- A settled ingestion stays settled. -/
private theorem settled_ingestion {run : IngestionRun} {resume : IngestionResume}
    (hflow : r.flow = .ingestion run) (h : r.settled admitted = true)
    (hstep : r.step (.ingestion resume) = some r') : r'.settled admitted = true := by
  have hawaited := IngestionRun.awaited_of_settled ((settled_ingestion_iff hflow).mp h).2
  obtain ⟨hopen, hsettled⟩ := (settled_ingestion_iff hflow).mp h
  simp only [step, hflow] at hstep
  split at hstep
  · cases hstep
  · obtain ⟨run', hrun, rfl⟩ := Option.map_eq_some_iff.mp hstep
    obtain ⟨hsettled', hended⟩ := IngestionRun.settled_step hsettled hrun
    rw [settled_ingestion_iff rfl]
    -- the run was not closed, so nothing was left behind, and it awaits no store
    have hempty : r.leftovers = [] := hopen.resolve_left (by
      simp [hflow, WorkspaceFlow.isClosed, hended])
    have hleft : r.leftBehind (.ingestion resume) = [] := by
      unfold leftBehind
      rw [hflow, WorkspaceFlow.awaited, hawaited]
      split <;> rfl
    refine ⟨Or.inr ?_, hsettled'⟩
    rw [hempty, hleft, List.append_nil]

/-- A settled conversation that gets no tenant stays settled. -/
private theorem settled_conversation {run : ConversationRun} {event : WorkflowEvent}
    (hflow : r.flow = .conversation run) (h : r.settled admitted = true)
    (htenant : admitted = false → ∀ tenantId, event ≠ .ensureTenantReady (.ok tenantId))
    (hstep : r.step (.conversation event) = some r') : r'.settled admitted = true := by
  obtain ⟨hopen, hsettled⟩ := (settled_conversation_iff hflow).mp h
  simp only [step, hflow] at hstep
  obtain ⟨run', hrun, rfl⟩ := Option.map_eq_some_iff.mp hstep
  rw [settled_conversation_iff rfl]
  have hleft : r.leftBehind (.conversation event) = [] := by
    unfold leftBehind
    split
    · rename_i target hfailed
      cases event with
      | store target result =>
        have hno : run.step (.store target result) ≠ some run' :=
          ConversationRun.not_store_of_settled (hsettled.imp_right And.left) target result
        exact absurd hrun hno
      | _ => cases hfailed
    · rfl
  constructor
  · rw [hleft, List.append_nil]
    rw [hflow] at hopen
    exact hopen.imp_left fun hclosed => ConversationRun.isClosed_step hclosed hrun
  · cases hsettled with
    | inl hfinalized => exact Or.inl (ConversationRun.finalized_step hfinalized hrun)
    | inr hqueued =>
      have hnext := ConversationRun.queued_step hqueued.1 hrun (htenant hqueued.2)
      exact hnext.imp_right fun hq => ⟨hq, hqueued.2⟩

/-- A settled run that gets no tenant stays settled. -/
theorem settled_step {e : RunEvent} (h : r.settled admitted = true) (hwf : e.wellFormed = true)
    (htenant : admitted = false → ∀ tenantId, e.output ≠ some (.tenant tenantId))
    (hstep : r.step e = some r') : r'.settled admitted = true := by
  cases hflow : r.flow with
  | ingestion run =>
    cases e with
    | ingestion resume => exact settled_ingestion hflow h hstep
    | _ => simp [step, hflow] at hstep
  | conversation run =>
    cases e with
    | ingestion resume => simp [step, hflow] at hstep
    | conversation event =>
      refine settled_conversation hflow h ?_ hstep
      intro hadmitted tenantId hevent
      subst hevent
      cases tenantId with
      | none => cases hwf
      | some tenantId => exact htenant hadmitted tenantId rfl
    | continueAsNew workflowRunId now =>
      -- a conversation that has continued as new is not settled
      obtain ⟨-, hsettled⟩ := (settled_conversation_iff hflow).mp h
      simp only [step, hflow] at hstep
      split at hstep
      · rename_i input hawait
        simp [ConversationRun.finalized, ConversationRun.queued, hawait] at hsettled
      · cases hstep

/-- A run of which no attempt has returned a tenant is settled all the more. -/
theorem settled_of_imp {admitted' : Bool} (hadmitted : admitted' = true → admitted = true)
    (h : r.settled admitted = true) : r.settled admitted' = true := by
  cases hflow : r.flow with
  | ingestion run => exact (settled_ingestion_iff hflow).mpr ((settled_ingestion_iff hflow).mp h)
  | conversation run =>
    obtain ⟨hopen, hsettled⟩ := (settled_conversation_iff hflow).mp h
    refine (settled_conversation_iff hflow).mpr ⟨hopen, ?_⟩
    refine hsettled.imp_right fun hq => ⟨hq.1, ?_⟩
    cases admitted' with
    | false => rfl
    | true => exact absurd (hadmitted rfl) (by simp [hq.2])

end WorkspaceRun

/-! ## Settled workspaces -/

namespace PurgedWorkspace

variable {s t : PurgedWorkspace}

/-- What an activity of the purge leaves as it is. -/
structure Performed (s t : PurgedWorkspace) : Prop where
  attempts : t.attempts = s.attempts
  purgeStatus : s.purgeStatus.isSome = true → t.purgeStatus.isSome = true
  runs : ∀ (k : Nat) (r' : WorkspaceRun), t.runs[k]? = some r' →
    ∃ r, s.runs[k]? = some r ∧ r'.flow = r.flow ∧ r'.leftovers = r.leftovers

theorem Performed.of_eq (hattempts : t.attempts = s.attempts) (hruns : t.runs = s.runs)
    (hstatus : s.purgeStatus.isSome = true → t.purgeStatus.isSome = true) : Performed s t where
  attempts := hattempts
  purgeStatus := hstatus
  runs _ r' hr := ⟨r', hruns ▸ hr, rfl, rfl⟩

/-- The request to cancel changes neither what a run awaits nor what it has left behind. -/
theorem performed_cancelInflightIngestion : Performed s s.cancelInflightIngestion where
  attempts := rfl
  purgeStatus := id
  runs k r' hr := by
    simp only [cancelInflightIngestion, List.getElem?_map, Option.map_eq_some_iff] at hr
    obtain ⟨r, hr, rfl⟩ := hr
    refine ⟨r, hr, ?_⟩
    split
    · split <;> exact ⟨rfl, rfl⟩
    · exact ⟨rfl, rfl⟩

/-- An activity of the purge touches neither runs nor attempts, and no marker is taken away. -/
theorem performed_of_perform {worker : Nat} {access : WeaviateAccess} {task : PurgeTask}
    (h : s.perform worker access task = some t) : Performed s t := by
  cases task with
  | cancelInflightIngestion =>
    obtain rfl := Option.some.inj h
    exact performed_cancelInflightIngestion
  | countBefore | countAfter =>
    obtain ⟨counts, -, rfl⟩ := Option.map_eq_some_iff.mp h
    exact .of_eq rfl rfl id
  | purgeWeaviateCollection =>
    cases access with
    | disconnected => cases h
    | answers totalCount =>
      obtain rfl := Option.some.inj h
      unfold deleteWorkspaceCollection
      split
      · exact .of_eq rfl rfl id
      · exact .of_eq rfl rfl id
    | unavailable | raises =>
      obtain rfl := Option.some.inj h
      exact .of_eq rfl rfl id
  | markWorkspacePurging | markWorkspacePurged =>
    obtain rfl := Option.some.inj h
    exact .of_eq rfl rfl fun _ => rfl
  | purgePostgresDocuments | purgePostgresSideTables | purgeAuditLogs | revokeWorkspaceApiKeys
  | recordPurgeReceipt =>
    obtain rfl := Option.some.inj h
    exact .of_eq rfl rfl id

theorem Performed.settled (h : Performed s t) (hs : s.settled = true) : t.settled = true := by
  rw [settled_iff] at hs ⊢
  refine ⟨h.attempts ▸ hs.1, ?_⟩
  intro k r' hr'
  obtain ⟨r, hr, hflow, hleftovers⟩ := h.runs k r' hr'
  have hadmitted : t.admitted k = s.admitted k := by rw [admitted, h.attempts, admitted]
  have hsettled := hs.2 k r hr
  rw [hadmitted]
  unfold WorkspaceRun.settled at hsettled ⊢
  rwa [hflow, hleftovers]

/-- A settled workspace, whose runs are put back one by one. -/
private theorem settled_set {k : Nat} {r : WorkspaceRun} (hs : s.settled = true)
    (hr : r.settled (s.admitted k) = true) : { s with runs := s.runs.set k r }.settled = true := by
  rw [settled_iff] at hs ⊢
  refine ⟨hs.1, ?_⟩
  intro j r' hr'
  by_cases hj : k = j
  · subst hj
    have hlt : k < s.runs.length := by
      have hlen := (List.getElem?_eq_some_iff.mp hr').1
      rwa [List.length_set] at hlen
    have hset : (s.runs.set k r)[k]? = some r := List.getElem?_set_self hlt
    rw [hset] at hr'
    obtain rfl := Option.some.inj hr'
    exact hr
  · rw [List.getElem?_set_ne hj] at hr'
    exact hs.2 j r' hr'

/-- A settled workspace with other attempts, all harmless, none of them newly admitted. -/
private theorem settled_attempts {attempts : List WriterAttempt} (hs : s.settled = true)
    (hattempts : ∀ a ∈ attempts, a.harmless = true ∧ (a ∈ s.attempts ∨ a.phase.isTenant = false))
    (ht : t.attempts = attempts) (hruns : t.runs = s.runs) : t.settled = true := by
  rw [settled_iff] at hs ⊢
  constructor
  · intro a ha
    exact (hattempts a (ht ▸ ha)).1
  · intro k r hr
    refine WorkspaceRun.settled_of_imp ?_ (hs.2 k r (hruns ▸ hr))
    intro hadmitted
    obtain ⟨a, ha, hk⟩ := List.any_eq_true.mp hadmitted
    refine List.any_eq_true.mpr ⟨a, ?_, hk⟩
    refine (hattempts a (ht ▸ ha)).2.resolve_right fun hno => ?_
    rw [hno, Bool.and_false] at hk
    cases hk

/-- The result of `ensure_tenant_ready` comes from an attempt. -/
private theorem output_ne_of_not_admitted {k : Nat} {e : RunEvent} (h : s.brings k e = true)
    (hadmitted : s.admitted k = false) (tenantId : Nat) : e.output ≠ some (.tenant tenantId) := by
  intro hout
  unfold brings at h
  rw [hout, Bool.and_eq_true] at h
  obtain ⟨a, ha, hk⟩ := List.any_eq_true.mp h.2
  simp only [Bool.and_eq_true, decide_eq_true_eq] at hk
  have hany : s.admitted k = true := by
    refine List.any_eq_true.mpr ⟨a, ha, ?_⟩
    simp [hk.1, hk.2, WriterPhase.isTenant]
  rw [hadmitted] at hany
  cases hany

/-- A harmless attempt is stopped by the marker. -/
theorem effect_of_settled (hs : s.settled = true) (hstatus : s.purgeStatus.isSome = true)
    {i : Nat} {step : AttemptStep} {effect : AttemptEffect}
    (h : s.attemptEffect i step = some effect) :
    effect.created = [] ∧ effect.attempt.phase = .raised := by
  unfold attemptEffect at h
  split at h
  · cases h
  · rename_i a ha
    split at h
    · cases h
    · have hharmless := (settled_iff.mp hs).1 a (List.mem_of_getElem? ha)
      obtain ⟨hcreated, hattempt⟩ := WriterAttempt.effect_of_harmless hharmless hstatus h
      exact ⟨hcreated, by rw [hattempt]⟩

/-- A settled workspace whose purge marker is set stays settled. -/
theorem settled_step (hs : s.settled = true) (hstatus : s.purgeStatus.isSome = true)
    {e : PurgedEvent} (h : s.step e = some t) : t.settled = true := by
  cases e with
  | purge k worker access =>
    simp only [step, purgeStep] at h
    split at h
    · cases h
    · split at h
      · cases h
      · obtain ⟨u, hu, rfl⟩ := Option.map_eq_some_iff.mp h
        exact (performed_of_perform hu).settled hs
  | purgeNext =>
    simp only [step, purgeNext] at h
    split at h
    · obtain rfl := Option.some.inj h
      exact hs
    · cases h
  | run k e =>
    simp only [step, runStep] at h
    split at h
    · rename_i hbrings
      obtain ⟨r', hr', rfl⟩ := Option.map_eq_some_iff.mp h
      obtain ⟨r, hr, hstep⟩ := Option.bind_eq_some_iff.mp hr'
      have hwf : e.wellFormed = true := by
        unfold brings at hbrings
        exact ((Bool.and_eq_true _ _).mp hbrings).1
      exact settled_set hs (WorkspaceRun.settled_step ((settled_iff.mp hs).2 k r hr) hwf
        (output_ne_of_not_admitted hbrings) hstep)
    · cases h
  | startAttempt k i worker =>
    simp only [step, startAttempt] at h
    obtain ⟨activity, hactivity, rfl⟩ := Option.map_eq_some_iff.mp h
    obtain ⟨r, hr, hscheduled⟩ := Option.bind_eq_some_iff.mp hactivity
    obtain ⟨userId, rfl⟩ := WorkspaceRun.scheduled_of_settled ((settled_iff.mp hs).2 k r hr)
      activity (List.mem_of_getElem? hscheduled)
    refine settled_attempts hs ?_ rfl rfl
    intro a ha
    cases List.mem_append.mp ha with
    | inl ha => exact ⟨(settled_iff.mp hs).1 a ha, Or.inl ha⟩
    | inr ha =>
      obtain rfl := List.mem_singleton.mp ha
      exact ⟨rfl, Or.inr rfl⟩
  | attempt i step =>
    simp only [PurgedWorkspace.step, attemptStep] at h
    obtain ⟨effect, heffect, rfl⟩ := Option.map_eq_some_iff.mp h
    obtain ⟨-, hphase⟩ := effect_of_settled hs hstatus heffect
    refine settled_attempts hs ?_ rfl rfl
    intro a ha
    cases List.mem_or_eq_of_mem_set ha with
    | inl ha => exact ⟨(settled_iff.mp hs).1 a ha, Or.inl ha⟩
    | inr ha =>
      subst ha
      constructor
      · simp [WriterAttempt.harmless, hphase]
      · exact Or.inr (by simp [hphase, WriterPhase.isTenant])
  | stage workflowRunId chunks | elsewhere otherRows auditLogs | restart worker =>
    obtain rfl := Option.some.inj h
    exact hs

/-- It creates nothing. -/
theorem created_of_settled (hs : s.settled = true) (hstatus : s.purgeStatus.isSome = true)
    (e : PurgedEvent) : s.created e = [] := by
  cases e with
  | attempt i step =>
    simp only [created]
    cases heffect : s.attemptEffect i step with
    | none => rfl
    | some effect => exact (effect_of_settled hs hstatus heffect).1
  | _ => rfl

/-! ## Finality -/

/-- The marker is set once the purge has done anything, and a workspace that it has returned as
    verified is settled. -/
structure Inv (s : PurgedWorkspace) : Prop where
  marked : s.purge.next ≠ 0 ∨ s.purge.landed = true → s.purgeStatus.isSome = true
  landed : s.purge.landed = true → s.purge.next < PurgeTask.all.length
  settled : s.purge.verified = true → s.settled = true

/-- A purge that has returned has done something. -/
theorem Inv.isSome_of_verified (h : s.Inv) (hverified : s.purge.verified = true) :
    s.purgeStatus.isSome = true := by
  refine h.marked (Or.inl ?_)
  unfold PurgeProgress.verified at hverified
  rw [Bool.and_eq_true, decide_eq_true_eq] at hverified
  rw [hverified.1]
  decide

/-- The purge alone touches its progress and the marker. -/
private theorem untouched_of_step {e : PurgedEvent}
    (hpurge : ∀ k worker access, e ≠ .purge k worker access) (hnext : e ≠ .purgeNext)
    (h : s.step e = some t) :
    t.purge = s.purge ∧ t.purgeStatus = s.purgeStatus := by
  cases e with
  | purge k worker access => exact absurd rfl (hpurge k worker access)
  | purgeNext => exact absurd rfl hnext
  | run k e =>
    simp only [step, runStep] at h
    split at h
    · obtain ⟨r', -, rfl⟩ := Option.map_eq_some_iff.mp h
      exact ⟨rfl, rfl⟩
    · cases h
  | startAttempt k i worker =>
    obtain ⟨activity, -, rfl⟩ := Option.map_eq_some_iff.mp h
    exact ⟨rfl, rfl⟩
  | attempt i step =>
    obtain ⟨effect, -, rfl⟩ := Option.map_eq_some_iff.mp h
    exact ⟨rfl, rfl⟩
  | stage workflowRunId chunks | elsewhere otherRows auditLogs | restart worker =>
    obtain rfl := Option.some.inj h
    exact ⟨rfl, rfl⟩

/-- An activity of the purge leaves the number of the activity that it awaits. -/
private theorem next_of_perform {worker : Nat} {access : WeaviateAccess} {task : PurgeTask}
    (h : s.perform worker access task = some t) : t.purge.next = s.purge.next := by
  cases task with
  | countBefore | countAfter =>
    obtain ⟨counts, -, rfl⟩ := Option.map_eq_some_iff.mp h
    rfl
  | purgeWeaviateCollection =>
    cases access with
    | disconnected => cases h
    | answers totalCount =>
      obtain rfl := Option.some.inj h
      unfold deleteWorkspaceCollection
      split <;> rfl
    | unavailable | raises =>
      obtain rfl := Option.some.inj h
      rfl
  | _ =>
    obtain rfl := Option.some.inj h
    rfl

/-- An attempt of an activity of the purge. -/
private theorem inv_purge {k worker : Nat} {access : WeaviateAccess} (hs : s.Inv)
    (h : s.purgeStep k worker access = some t) : t.Inv := by
  unfold purgeStep at h
  split at h
  · cases h
  · rename_i task htask
    split at h
    · cases h
    · rename_i hle
      obtain ⟨u, hu, rfl⟩ := Option.map_eq_some_iff.mp h
      have hperformed := performed_of_perform hu
      have hk : k < PurgeTask.all.length := (List.getElem?_eq_some_iff.mp htask).1
      have hnext := next_of_perform hu
      constructor
      · intro _
        by_cases hfirst : s.purge.next = 0 ∧ s.purge.landed = false
        · -- the first activity that takes effect is `mark_workspace_purging`
          obtain rfl : k = 0 := by omega
          obtain rfl := Option.some.inj htask
          obtain rfl := Option.some.inj hu
          rfl
        · refine hperformed.purgeStatus (hs.marked ?_)
          rw [not_and_or, Bool.not_eq_false] at hfirst
          exact hfirst
      · intro hlanded
        by_cases hcurrent : k = s.purge.next
        · simp only [hcurrent, if_true]
          omega
        · simp only [if_neg hcurrent] at hlanded ⊢
          exact hs.landed hlanded
      · intro hverified
        have hlate : k ≠ s.purge.next := by
          intro hcurrent
          simp only [PurgeProgress.verified, hcurrent, if_true, Bool.and_eq_true,
            decide_eq_true_eq] at hverified
          omega
        simp only [if_neg hlate] at hverified
        exact hperformed.settled (hs.settled hverified)

/-- A step that returns a settled workspace, if it returns `verified=True`. -/
private theorem inv_step (s : PurgedWorkspace) (e : PurgedEvent) (t : PurgedWorkspace)
    (hs : s.Inv) (hC : s.returnsSettled e = true) (h : s.step e = some t) : t.Inv := by
  by_cases hpurge : ∃ k worker access, e = .purge k worker access
  · obtain ⟨k, worker, access, rfl⟩ := hpurge
    exact inv_purge hs h
  · by_cases hnext : e = .purgeNext
    · subst hnext
      have hverified : t.purge.verified = true → s.settled = true := by
        intro hverified
        refine of_decide_eq_true hC ?_
        have hnext : s.purgeNext = some t := h
        rw [hnext]
        exact hverified
      simp only [step, purgeNext] at h
      split at h
      · rename_i hlanded
        obtain rfl := Option.some.inj h
        exact ⟨fun _ => hs.marked (Or.inr hlanded), nofun, hverified⟩
      · cases h
    · have huntouched := untouched_of_step
        (fun k worker access he => hpurge ⟨k, worker, access, he⟩) hnext h
      constructor
      · rw [huntouched.1, huntouched.2]
        exact hs.marked
      · rw [huntouched.1]
        exact hs.landed
      · rw [huntouched.1]
        intro hverified
        exact settled_step (hs.settled hverified) (hs.isSome_of_verified hverified) h

/-- In every run in which a purge returns `verified=True` with the workspace settled only,
    nothing is created after that. -/
theorem final_of_returnsSettled (s₀ : PurgedWorkspace) (hstart : s₀.purge = {}) (es : List PurgedEvent)
    (s : PurgedWorkspace) (hrun : exec step s₀ es = some s)
    (hC : AllSteps step (fun s e => s.returnsSettled e = true) s₀ es) : AllSteps step Final s₀ es := by
  have hinv : s₀.Inv := by
    refine ⟨?_, ?_, ?_⟩ <;> rw [hstart] <;> simp [PurgeProgress.verified, PurgeTask.all]
  refine allSteps_imp_of_invariant inv_step ?_ hinv hC hrun
  intro s e t hs _ _ hverified
  exact created_of_settled (hs.settled hverified) (hs.isSome_of_verified hverified) e

/-- The purge, each activity at the first attempt on the first worker. -/
def purges : List PurgedEvent :=
  (List.range PurgeTask.all.length).flatMap fun k => [.purge k 0 (.answers true), .purgeNext]

/-- The workspace with one run, on one worker. -/
def withRun (flow : WorkspaceFlow) : PurgedWorkspace where
  input := { workspaceId := "ws", operator := "op" }
  workers := [{}]
  runs := [{ flow := flow }]

/-- A conversation that has just been triggered. -/
def sampleConversation (tenantId : Option Nat) : ConversationRun :=
  .new {
    workspaceId := "ws"
    externalId := "chat"
    userId := "user"
    tenantId := tenantId
    flushCharThreshold := 1 } "conv" 0

/-- It asks for its tenant. -/
def asks : List PurgedEvent :=
  [.run 0 (.conversation .start), .startAttempt 0 0 0, .attempt 0 .check,
    .run 0 (.conversation (.ensureTenantReady (.failed "new ingest is refused.")))]

/-- The marker refuses the tenant. -/
theorem final_asksAfterPurge :
    ∃ s, exec step (withRun (.conversation (sampleConversation none))) (purges ++ asks) = some s ∧
      s.purge.verified = true ∧
      AllSteps step Final (withRun (.conversation (sampleConversation none)))
        (purges ++ asks) :=
  ⟨_, rfl, by decide +kernel, final_of_returnsSettled _ rfl _ _ rfl (by decide +kernel)⟩

/-- A conversation that has its tenant buffers a turn. -/
def buffers : List PurgedEvent :=
  [.run 0 (.conversation .start),
    .run 0 (.conversation (.addTurn {
      turnId := "t1", role := "user", text := "hi", ts := "t", userId := "user" })),
    .run 0 (.conversation .conditionMet)]

/-- It flushes the turn. -/
def flushes : List PurgedEvent :=
  [.run 0 (.conversation .conditionMet),
    .run 0 (.conversation (.redactTurns (.ok {
      redactedTurns := [{ turnId := "t1", role := some "user", text := "hi",
                          originalIndex := 0 }] }))),
    .stage "conv" (some [{ documentId := conversationDocumentId "ws" "chat", content := "hi",
                           chunkIndex := 0, startChar := 0, endChar := 2 }]),
    .run 0 (.conversation (.chunkConversation (.ok 1))), .startAttempt 0 0 0,
    .attempt 0 .readStaging, .attempt 0 (.write 1 [])]

/-- A flush after the purge brings the document back. -/
theorem not_final_flushesAfterPurge :
    ¬ ∀ (s₀ : PurgedWorkspace) (es : List PurgedEvent) (s : PurgedWorkspace), s₀.purge = {} →
      exec step s₀ es = some s → AllSteps step Final s₀ es := by
  intro h
  obtain ⟨s, hrun⟩ := Option.isSome_iff_exists.mp
    (by decide +kernel : (exec step (withRun (.conversation (sampleConversation (some 1))))
      (buffers ++ purges ++ flushes)).isSome = true)
  have hfinal := h _ (buffers ++ purges ++ flushes) s rfl hrun
  exact absurd hfinal (by decide +kernel)

/-- The first upload of a document. -/
def sampleUpload : UploadRun where
  messageNo := 0
  input := {
    documentId := "doc"
    workspaceId := "ws"
    userId := "user"
    filename := "a.txt"
    originalFilename := "a.txt"
    contentType := "text/plain"
    sizeBytes := 5
    storageBackend := "local"
    storagePath := "ws/a.txt" }
  workflowRunId := "run"
  startTime := 1

/-- Its run claims the document. -/
def claims : List PurgedEvent :=
  [.startAttempt 0 0 0, .attempt 0 (.write 1 []),
    .run 0 (.ingestion (.createPendingDocument (.ok ()))),
    .run 0 (.ingestion (.setProcessing (.ok ())))]

/-- It is cancelled, and records a dead letter. -/
def deadLetters : List PurgedEvent :=
  [.run 0 (.ingestion (.cancelled true)), .run 0 (.ingestion (.setFailed (.ok ()))),
    .startAttempt 0 0 0, .attempt 1 (.write 2 [])]

/-- An ingestion that the purge cancels comes back as a dead letter. -/
example : ¬ AllSteps step Final (withRun (.ingestion { origin := sampleUpload }))
    (claims ++ purges ++ deadLetters) := by
  decide +kernel

end PurgedWorkspace

end Inherent
