import Inherent.Native.AuditLog

/-!
# Audit events are stored once

What the publisher builds passes the validator and has a document, and what any deliveries,
failures, retries and purges do to the collection: nothing but published events is in it, a
document stays as it is until a purge, and an acknowledged event is stored unless its workflow
is still at it or has failed often enough.
-/

namespace Inherent

/-! ## The validator and the writer -/

section

variable {event : Message} {parseText : String → Option String}

/-- What the validator asks for. -/
theorem validateAuditEvent_eq_ok : validateAuditEvent event = .ok () ↔
    (∀ field ∈ auditRequiredFields, ∃ value, event.lookup field = some value) ∧
      ∃ source ∈ auditValidSources, event.lookup "source" = some (.str source) := by
  by_cases hmissing : auditRequiredFields.filter (fun field => (event.lookup field).isNone) = []
  · have hfields : ∀ field ∈ auditRequiredFields, ∃ value, event.lookup field = some value := by
      intro field hfield
      have := List.filter_eq_nil_iff.mp hmissing field hfield
      exact Option.isSome_iff_exists.mp (by simpa [Option.isSome_iff_ne_none] using this)
    rw [and_iff_right hfields]
    obtain ⟨value, hvalue⟩ := hfields "source" (by decide)
    cases value with
    | str source =>
      by_cases hsource : source ∈ auditValidSources
      · simp [validateAuditEvent, hmissing, hvalue, hsource]
      · simp [validateAuditEvent, hmissing, hvalue, hsource]
    | _ => simp [validateAuditEvent, hmissing, hvalue]
  · refine iff_of_false ?_ fun h => hmissing (List.filter_eq_nil_iff.mpr fun field hfield => ?_)
    · simp [validateAuditEvent, hmissing]
    · obtain ⟨value, hvalue⟩ := h.1 field hfield
      simp [hvalue]

/-- A validated event never raises in the writer, as long as its id and its timestamp are
    texts of the right kind. -/
theorem auditDocument_of_valid (hvalid : validateAuditEvent event = .ok ()) {auditId : String}
    (hid : event.lookup "audit_id" = some (.str auditId))
    (htimestamp : ∀ text, event.lookup "query_timestamp" = some (.str text) →
      (parseText text).isSome) (now : String) :
    ∃ doc, auditDocument parseText now event = some doc ∧ doc.auditId = auditId := by
  obtain ⟨hfield, -⟩ := validateAuditEvent_eq_ok.mp hvalid
  obtain ⟨_, hworkspace⟩ := hfield "workspace_id" (by decide)
  obtain ⟨_, huser⟩ := hfield "user_id" (by decide)
  obtain ⟨_, hsource⟩ := hfield "source" (by decide)
  obtain ⟨_, htype⟩ := hfield "query_type" (by decide)
  obtain ⟨_, htext⟩ := hfield "query_text" (by decide)
  obtain ⟨_, hcount⟩ := hfield "result_count" (by decide)
  obtain ⟨_, htime⟩ := hfield "response_time_ms" (by decide)
  obtain ⟨stamp, hstamp⟩ := hfield "query_timestamp" (by decide)
  have hparse : ∃ t, parseTimestamp parseText now (some stamp) = some t := by
    cases stamp with
    | str text => exact Option.isSome_iff_exists.mp (htimestamp text hstamp)
    | _ => exact ⟨now, rfl⟩
  obtain ⟨t, ht⟩ := hparse
  simp only [auditDocument, Message.getItem, hstamp, ht, hid, hworkspace, huser, hsource, htype,
    htext, hcount, htime, JsonValue.toStr, Option.bind_eq_bind, Option.bind_some, Option.map_some,
    Option.pure_def, Option.some.injEq, exists_eq_left']

/-- The id of a document is that of its event. -/
theorem auditDocument_auditId {now : String} {doc : AuditDocument}
    (h : auditDocument parseText now event = some doc) :
    event.lookup "audit_id" = some (.str doc.auditId) := by
  simp only [auditDocument, Option.bind_eq_bind, Option.pure_def] at h
  obtain ⟨_, -, h⟩ := Option.bind_eq_some_iff.mp h
  obtain ⟨auditId, hid, h⟩ := Option.bind_eq_some_iff.mp h
  obtain ⟨_, -, h⟩ := Option.bind_eq_some_iff.mp h
  obtain ⟨_, -, h⟩ := Option.bind_eq_some_iff.mp h
  obtain ⟨_, -, h⟩ := Option.bind_eq_some_iff.mp h
  obtain ⟨_, -, h⟩ := Option.bind_eq_some_iff.mp h
  obtain ⟨_, -, h⟩ := Option.bind_eq_some_iff.mp h
  obtain ⟨_, -, h⟩ := Option.bind_eq_some_iff.mp h
  obtain ⟨_, -, h⟩ := Option.bind_eq_some_iff.mp h
  obtain ⟨value, hvalue, hstr⟩ := Option.bind_eq_some_iff.mp hid
  cases value with
  | str text =>
    obtain rfl : text = auditId := Option.some.inj hstr
    rw [hvalue, ← Option.some.inj h]
  | _ => cases hstr

end

/-! ## The publisher -/

section

variable {auditId freshRequestId now : String} {args : AuditArguments}

/-- Every event of the publisher has the fields of the validator, whatever its arguments. -/
theorem lookup_buildAuditEvent {field : String} (h : field ∈ auditRequiredFields) :
    ∃ value, (buildAuditEvent auditId freshRequestId now args).lookup field = some value := by
  simp only [auditRequiredFields, List.mem_cons, List.not_mem_nil, or_false] at h
  apply Option.isSome_iff_exists.mp
  obtain rfl | rfl | rfl | rfl | rfl | rfl | rfl | rfl | rfl | rfl := h <;> rfl

/-- An event of the publisher is valid exactly when its source is one of the enum. -/
theorem validateAuditEvent_buildAuditEvent :
    validateAuditEvent (buildAuditEvent auditId freshRequestId now args) = .ok () ↔
      args.source ∈ auditValidSources := by
  have hsource : (buildAuditEvent auditId freshRequestId now args).lookup "source" =
      some (.str args.source) := rfl
  rw [validateAuditEvent_eq_ok, and_iff_right fun _ => lookup_buildAuditEvent, hsource]
  constructor
  · rintro ⟨source, hmem, heq⟩
    obtain rfl : args.source = source := by simpa using heq
    exact hmem
  · intro hmem
    exact ⟨args.source, hmem, rfl⟩

/-- The validator accepts the event of every tool call. -/
theorem validateAuditEvent_arguments (event : AuditEvent) (elapsedMs : String) :
    validateAuditEvent (buildAuditEvent auditId freshRequestId now (event.arguments elapsedMs)) =
      .ok () :=
  validateAuditEvent_buildAuditEvent.mpr (show "api_key" ∈ auditValidSources by decide)

/-- Each result is in exactly one bucket of the risk counts. -/
theorem sum_countResultsByRisk (contentRisks : List (Option String)) :
    ((countResultsByRisk contentRisks).map Prod.snd).sum = contentRisks.length := by
  have hbucket : ∀ risk, riskBucket risk ∈ ["none", "low", "medium", "high"] := by
    intro risk
    unfold riskBucket
    split
    · assumption
    · decide
  simp only [countResultsByRisk, List.map_cons, List.map_nil, List.sum_cons, List.sum_nil]
  induction contentRisks with
  | nil => rfl
  | cons risk risks ih =>
    have := hbucket risk
    simp only [List.mem_cons, List.not_mem_nil, or_false] at this
    simp only [List.countP_cons, List.length_cons]
    obtain h | h | h | h := this <;> simp [h] <;> omega

end

/-! ## The collection -/

section

variable {parseText : String → Option String} {s s' : AuditSystem} {w : AuditWorkflow}

/-- A document is that of a published event that is valid. -/
def Published (parseText : String → Option String) (s : AuditSystem) (doc : AuditDocument) :
    Prop :=
  ∃ event ∈ s.stream, validateAuditEvent event = .ok () ∧
    ∃ now, auditDocument parseText now event = some doc

/-- An open workflow works on a published event, and past its first stage on a valid one. -/
structure WorkflowFits (s : AuditSystem) (w : AuditWorkflow) : Prop where
  published : w.event ∈ s.stream
  id : auditWorkflowId w.event = some w.workflowId
  valid : w.stage ≠ .validate → validateAuditEvent w.event = .ok ()

/-- The invariant of provenance. -/
structure AuditSound (parseText : String → Option String) (s : AuditSystem) : Prop where
  logs : ∀ doc ∈ s.logs.rows, Published parseText s doc
  running : ∀ w ∈ s.running.rows, WorkflowFits s w

theorem Published.mono {doc : AuditDocument} (h : Published parseText s doc)
    (hstream : ∀ event ∈ s.stream, event ∈ s'.stream) : Published parseText s' doc := by
  obtain ⟨event, hevent, hrest⟩ := h
  exact ⟨event, hstream event hevent, hrest⟩

theorem WorkflowFits.mono (h : WorkflowFits s w)
    (hstream : ∀ event ∈ s.stream, event ∈ s'.stream) : WorkflowFits s' w :=
  ⟨hstream _ h.published, h.id, h.valid⟩

/-- An open workflow goes on to a stage past the validation. -/
theorem AuditSound.toStage (h : AuditSound parseText s) (hw : WorkflowFits s w)
    (hvalid : validateAuditEvent w.event = .ok ()) (hmem : w ∈ s.running.rows)
    (stage : AuditStage) : AuditSound parseText (s.toStage w.workflowId stage) := by
  refine ⟨h.logs, fun v hv => ?_⟩
  obtain ⟨u, hu, rfl⟩ := List.mem_map.mp hv
  by_cases hid : u.workflowId = w.workflowId
  · -- only one open workflow has the id
    obtain rfl := UniqueTable.eq_of_key_eq hu hmem hid
    rw [if_pos rfl]
    exact ⟨hw.published, hw.id, fun _ => hvalid⟩
  · rw [if_neg hid]
    exact (h.running u hu).mono fun _ he => he

theorem AuditSound.erase (h : AuditSound parseText s) (workflowId : String)
    (hstream : s'.stream = s.stream) (hlogs : s'.logs = s.logs)
    (hrunning : s'.running = s.running.erase workflowId) : AuditSound parseText s' := by
  have hmono : ∀ event ∈ s.stream, event ∈ s'.stream := fun _ he => hstream ▸ he
  refine ⟨fun doc hdoc => (h.logs doc (hlogs ▸ hdoc)).mono hmono, fun v hv => ?_⟩
  rw [hrunning] at hv
  exact (h.running v (UniqueTable.mem_erase.mp hv).1).mono hmono

theorem AuditSound.retryWrite (h : AuditSound parseText s) (hw : WorkflowFits s w)
    (hvalid : validateAuditEvent w.event = .ok ()) (hmem : w ∈ s.running.rows) (attempts : Nat) :
    AuditSound parseText (s.retryWrite w attempts) := by
  cases attempts with
  | zero => exact h.erase w.workflowId rfl rfl rfl
  | succ attempts => exact h.toStage hw hvalid hmem _

/-- The insert of the document of a valid event. -/
theorem AuditSound.insert (h : AuditSound parseText s) (hw : WorkflowFits s w)
    (hvalid : validateAuditEvent w.event = .ok ()) {now : String} {doc : AuditDocument}
    (hdoc : auditDocument parseText now w.event = some doc) :
    AuditSound parseText { s with logs := s.logs.insertNew doc } := by
  refine ⟨fun d hd => ?_, fun v hv => (h.running v hv).mono fun _ he => he⟩
  obtain hd | rfl := UniqueTable.mem_of_mem_insertNew hd
  · exact (h.logs d hd).mono fun _ he => he
  · exact ⟨w.event, hw.published, hvalid, now, hdoc⟩

theorem WorkflowFits.of_logs (hw : WorkflowFits s w) (logs : UniqueTable AuditDocument.auditId) :
    WorkflowFits { s with logs := logs } w :=
  ⟨hw.published, hw.id, hw.valid⟩

/-- Everything an attempt of an activity can do. -/
inductive ActivityStep (parseText : String → Option String) (s : AuditSystem) (w : AuditWorkflow)
    (now : String) : AttemptOutcome → AuditSystem → Prop where
  | validated (hstage : w.stage = .validate) (hvalid : validateAuditEvent w.event = .ok ()) :
    ActivityStep parseText s w now .done (s.toStage w.workflowId (.write auditWriteAttempts))
  | notValidated {outcome} (hstage : w.stage = .validate)
      (h : outcome = .done → validateAuditEvent w.event ≠ .ok ()) :
    ActivityStep parseText s w now outcome (s.fail w .notValidated)
  | unwritable {outcome left} (hstage : w.stage = .write left)
      (hdoc : auditDocument parseText now w.event = none) :
    ActivityStep parseText s w now outcome (s.retryWrite w (left - 1))
  | stored {left doc written} (hstage : w.stage = .write left)
      (hdoc : auditDocument parseText now w.event = some doc) :
    ActivityStep parseText s w now .done
      ({ s with logs := s.logs.insertNew doc }.toStage w.workflowId
        (.metric auditMetricAttempts written))
  | refused {left} (hstage : w.stage = .write left) :
    ActivityStep parseText s w now .refused (s.retryWrite w (left - 1))
  | resultLost {left doc} (hstage : w.stage = .write left)
      (hdoc : auditDocument parseText now w.event = some doc) :
    ActivityStep parseText s w now .resultLost
      ({ s with logs := s.logs.insertNew doc }.retryWrite w (left - 1))
  | closed {outcome left written} (hstage : w.stage = .metric left written) :
    ActivityStep parseText s w now outcome (s.close w.workflowId)
  | again {outcome left left' written} (hstage : w.stage = .metric left written) :
    ActivityStep parseText s w now outcome (s.toStage w.workflowId (.metric left' written))

theorem activityStep (parseText : String → Option String) (s : AuditSystem) (w : AuditWorkflow)
    (now : String) (outcome : AttemptOutcome) :
    ActivityStep parseText s w now outcome (s.attempt parseText w now outcome) := by
  cases hstage : w.stage with
  | validate =>
    cases hvalid : validateAuditEvent w.event with
    | error e =>
      have hfail : s.attempt parseText w now outcome = s.fail w .notValidated := by
        cases outcome <;> simp only [AuditSystem.attempt, hstage, hvalid]
      rw [hfail]
      exact .notValidated hstage fun _ => by simp [hvalid]
    | ok _ =>
      cases outcome with
      | done =>
        simp only [AuditSystem.attempt, hstage, hvalid]
        exact .validated hstage hvalid
      | refused =>
        simp only [AuditSystem.attempt, hstage]
        exact .notValidated hstage fun h => (by cases h)
      | resultLost =>
        simp only [AuditSystem.attempt, hstage]
        exact .notValidated hstage fun h => (by cases h)
  | write left =>
    cases hdoc : auditDocument parseText now w.event with
    | none =>
      simp only [AuditSystem.attempt, hstage, hdoc]
      exact .unwritable hstage hdoc
    | some doc =>
      cases outcome with
      | done =>
        simp only [AuditSystem.attempt, hstage, hdoc]
        exact .stored hstage hdoc
      | refused =>
        simp only [AuditSystem.attempt, hstage, hdoc]
        exact .refused hstage
      | resultLost =>
        simp only [AuditSystem.attempt, hstage, hdoc]
        exact .resultLost hstage hdoc
  | metric left written =>
    match outcome, left with
    | .done, _ =>
      simp only [AuditSystem.attempt, hstage]
      exact .closed hstage
    | .refused, 0 =>
      simp only [AuditSystem.attempt, hstage]
      exact .closed hstage
    | .refused, 1 =>
      simp only [AuditSystem.attempt, hstage]
      exact .closed hstage
    | .refused, left + 2 =>
      simp only [AuditSystem.attempt, hstage]
      exact .again hstage
    | .resultLost, 0 =>
      simp only [AuditSystem.attempt, hstage]
      exact .closed hstage
    | .resultLost, 1 =>
      simp only [AuditSystem.attempt, hstage]
      exact .closed hstage
    | .resultLost, left + 2 =>
      simp only [AuditSystem.attempt, hstage]
      exact .again hstage

/-- An attempt of an activity keeps it. -/
theorem AuditSound.attempt (h : AuditSound parseText s) (hmem : w ∈ s.running.rows)
    {now : String} {outcome : AttemptOutcome} (hstep : ActivityStep parseText s w now outcome s') :
    AuditSound parseText s' := by
  have hw := h.running w hmem
  cases hstep with
  | validated _ hvalid => exact h.toStage hw hvalid hmem _
  | notValidated _ _ => exact h.erase w.workflowId rfl rfl rfl
  | unwritable hstage _ => exact h.retryWrite hw (hw.valid (by simp [hstage])) hmem _
  | @stored left doc written hstage hdoc =>
    have hvalid := hw.valid (by simp [hstage])
    exact (h.insert hw hvalid hdoc).toStage (hw.of_logs _) hvalid hmem _
  | refused hstage => exact h.retryWrite hw (hw.valid (by simp [hstage])) hmem _
  | resultLost hstage hdoc =>
    have hvalid := hw.valid (by simp [hstage])
    exact (h.insert hw hvalid hdoc).retryWrite (hw.of_logs _) hvalid hmem _
  | closed _ => exact h.erase w.workflowId rfl rfl rfl
  | again hstage => exact h.toStage hw (hw.valid (by simp [hstage])) hmem _

/-- Every event keeps it. -/
theorem auditSound_step {e : AuditAction} (h : AuditSound parseText s)
    (hstep : s.step parseText e = some s') : AuditSound parseText s' := by
  cases e with
  | publish event =>
    simp only [AuditSystem.step, Option.some.injEq] at hstep
    subst hstep
    have hmono : ∀ e ∈ s.stream, e ∈ s.stream ++ [event] := fun e he => List.mem_append_left _ he
    exact ⟨fun doc hdoc => (h.logs doc hdoc).mono hmono, fun v hv => (h.running v hv).mono hmono⟩
  | deliver entry started replied =>
    obtain ⟨message, hentry, rfl⟩ := Option.map_eq_some_iff.mp hstep
    have hmessage : message ∈ s.stream := List.mem_of_getElem? hentry
    cases hid : auditWorkflowId message with
    | none => exact ⟨h.logs, fun v hv => (h.running v hv).mono fun _ he => he⟩
    | some workflowId =>
      have hstarted : AuditSound parseText { s with
          running := s.running.insertNew { workflowId := workflowId, event := message } } := by
        refine ⟨h.logs, fun v hv => ?_⟩
        obtain hv | rfl := UniqueTable.mem_of_mem_insertNew hv
        · exact (h.running v hv).mono fun _ he => he
        · exact ⟨hmessage, hid, fun hne => absurd rfl hne⟩
      cases started with
      | false => exact h
      | true =>
        cases replied with
        | false => exact hstarted
        | true => exact ⟨hstarted.logs, fun v hv => (hstarted.running v hv).mono fun _ he => he⟩
  | attempt workflowId now outcome =>
    cases hfind : s.running.find? workflowId with
    | none =>
      simp only [AuditSystem.step, hfind, Option.some.injEq] at hstep
      exact hstep ▸ h
    | some w =>
      simp only [AuditSystem.step, hfind, Option.some.injEq] at hstep
      exact hstep ▸ h.attempt (UniqueTable.find?_eq_some.mp hfind).1
        (activityStep parseText s w now outcome)
  | purge workspaceId =>
    simp only [AuditSystem.step, Option.some.injEq] at hstep
    subst hstep
    exact ⟨fun doc hdoc => (h.logs doc (UniqueTable.mem_filter.mp hdoc).1).mono fun _ he => he,
      fun v hv => (h.running v hv).mono fun _ he => he⟩

theorem auditSound_exec {es : List AuditAction} (h : AuditSound parseText s)
    (hrun : EventRun.exec (AuditSystem.step parseText) s es = some s') :
    AuditSound parseText s' :=
  EventRun.exec_invariant (I := AuditSound parseText)
    (fun _ _ _ ht hstep => auditSound_step ht hstep) h hrun

theorem auditSound_init : AuditSound parseText .init where
  logs := by
    intro doc hdoc
    cases hdoc
  running := by
    intro w hw
    cases hw

end

/-! ## What a step leaves as it is -/

section

variable {parseText : String → Option String} {s s' : AuditSystem} {v w : AuditWorkflow}
  {workflowId : String} {stage : AuditStage}

/-- The open workflows after one of them goes on. -/
theorem AuditSystem.mem_toStage (h : v ∈ (s.toStage workflowId stage).running.rows) :
    (v.workflowId = workflowId ∧ v.stage = stage) ∨
      (v.workflowId ≠ workflowId ∧ v ∈ s.running.rows) := by
  obtain ⟨u, hu, rfl⟩ := List.mem_map.mp h
  by_cases hid : u.workflowId = workflowId
  · rw [if_pos hid]
    exact Or.inl ⟨hid, rfl⟩
  · rw [if_neg hid]
    exact Or.inr ⟨hid, hu⟩

/-- No open workflow goes away when one of them goes on. -/
theorem AuditSystem.holds_toStage {k : String} (h : s.running.Holds k) :
    (s.toStage workflowId stage).running.Holds k := by
  obtain ⟨u, hu, rfl⟩ := UniqueTable.holds_iff.mp h
  refine UniqueTable.holds_iff.mpr ⟨_, List.mem_map_of_mem hu, ?_⟩
  split <;> rfl

/-- An attempt of an activity of one workflow, seen from everything else. -/
structure AttemptFrame (w : AuditWorkflow) (s s' : AuditSystem) : Prop where
  stream : s'.stream = s.stream
  acked : s'.acked = s.acked
  logs : s.logs.rows <+: s'.logs.rows
  failed : s.failed <+: s'.failed
  of_failed : ∀ p ∈ s'.failed, p.1.workflowId ≠ w.workflowId → p ∈ s.failed
  running : ∀ v ∈ s'.running.rows, v.workflowId ≠ w.workflowId → v ∈ s.running.rows
  holds : ∀ k ≠ w.workflowId, s.running.Holds k → s'.running.Holds k

theorem AttemptFrame.toStage (w : AuditWorkflow) (s : AuditSystem) (stage : AuditStage) :
    AttemptFrame w s (s.toStage w.workflowId stage) where
  stream := rfl
  acked := rfl
  logs := List.prefix_rfl
  failed := List.prefix_rfl
  of_failed _ hp _ := hp
  running v hv hne := by
    obtain ⟨hid, -⟩ | ⟨-, hmem⟩ := AuditSystem.mem_toStage hv
    · exact absurd hid hne
    · exact hmem
  holds _ _ h := AuditSystem.holds_toStage h

/-- The workflow is no longer open, and may be among the failed ones. -/
theorem AttemptFrame.erase {failures : List (AuditWorkflow × AuditFailure)}
    (hfailures : ∀ p ∈ failures, p.1 = w) :
    AttemptFrame w s
      { s with running := s.running.erase w.workflowId, failed := s.failed ++ failures } where
  stream := rfl
  acked := rfl
  logs := List.prefix_rfl
  failed := List.prefix_append _ _
  of_failed p hp hne := by
    obtain hp | hp := List.mem_append.mp hp
    · exact hp
    · exact absurd (congrArg AuditWorkflow.workflowId (hfailures p hp)) hne
  running v hv _ := (UniqueTable.mem_erase.mp hv).1
  holds k hne h := by
    obtain ⟨u, hu, rfl⟩ := UniqueTable.holds_iff.mp h
    exact UniqueTable.holds_iff.mpr ⟨u, UniqueTable.mem_erase.mpr ⟨hu, hne⟩, rfl⟩

theorem AttemptFrame.fail (w : AuditWorkflow) (s : AuditSystem) (failure : AuditFailure) :
    AttemptFrame w s (s.fail w failure) :=
  AttemptFrame.erase fun p hp => by rw [List.mem_singleton.mp hp]

theorem AttemptFrame.close (w : AuditWorkflow) (s : AuditSystem) :
    AttemptFrame w s (s.close w.workflowId) := by
  have h : AttemptFrame w s
      { s with running := s.running.erase w.workflowId, failed := s.failed ++ [] } :=
    AttemptFrame.erase (by simp)
  rw [List.append_nil] at h
  exact h

theorem AttemptFrame.retryWrite (w : AuditWorkflow) (s : AuditSystem) (attempts : Nat) :
    AttemptFrame w s (s.retryWrite w attempts) := by
  cases attempts with
  | zero => exact AttemptFrame.fail w s .writeExhausted
  | succ attempts => exact AttemptFrame.toStage w s _

/-- The insert of a document before whatever else the attempt does. -/
theorem AttemptFrame.of_insert {doc : AuditDocument}
    (h : AttemptFrame w { s with logs := s.logs.insertNew doc } s') : AttemptFrame w s s' :=
  ⟨h.stream, h.acked, (UniqueTable.rows_prefix_insertNew s.logs doc).trans h.logs, h.failed,
    h.of_failed, h.running, h.holds⟩

theorem ActivityStep.frame {now : String} {outcome : AttemptOutcome}
    (hstep : ActivityStep parseText s w now outcome s') : AttemptFrame w s s' := by
  cases hstep with
  | validated => exact AttemptFrame.toStage w s _
  | notValidated => exact AttemptFrame.fail w s _
  | unwritable => exact AttemptFrame.retryWrite w s _
  | stored => exact (AttemptFrame.toStage w _ _).of_insert
  | refused => exact AttemptFrame.retryWrite w s _
  | resultLost => exact (AttemptFrame.retryWrite w _ _).of_insert
  | closed => exact AttemptFrame.close w s
  | again => exact AttemptFrame.toStage w s _

/-- A document stays as it is, unless a workspace that it names is purged. -/
theorem mem_logs_of_step {e : AuditAction} {doc : AuditDocument}
    (hstep : s.step parseText e = some s') (hdoc : doc ∈ s.logs.rows) :
    doc ∈ s'.logs.rows ∨ ∃ workspaceId, e = .purge workspaceId ∧ doc.references workspaceId := by
  cases e with
  | publish event =>
    simp only [AuditSystem.step, Option.some.injEq] at hstep
    exact Or.inl (hstep ▸ hdoc)
  | deliver entry started replied =>
    obtain ⟨message, -, rfl⟩ := Option.map_eq_some_iff.mp hstep
    left
    cases auditWorkflowId message with
    | none => exact hdoc
    | some workflowId => cases started <;> cases replied <;> exact hdoc
  | attempt workflowId now outcome =>
    left
    cases hfind : s.running.find? workflowId with
    | none =>
      simp only [AuditSystem.step, hfind, Option.some.injEq] at hstep
      exact hstep ▸ hdoc
    | some w =>
      simp only [AuditSystem.step, hfind, Option.some.injEq] at hstep
      exact hstep ▸ (activityStep parseText s w now outcome).frame.logs.subset hdoc
  | purge workspaceId =>
    simp only [AuditSystem.step, Option.some.injEq] at hstep
    subst hstep
    by_cases href : doc.references workspaceId = true
    · exact Or.inr ⟨workspaceId, rfl, href⟩
    · exact Or.inl (UniqueTable.mem_filter.mpr ⟨hdoc, by simpa using href⟩)

/-- The collection only grows but for purges: a document in it stays as it is until a workspace
    that it names is purged, and every document is that of a published event that is valid. -/
theorem audit_log_is_append_only {es fs : List AuditAction}
    (hes : EventRun.exec (AuditSystem.step parseText) .init es = some s)
    (hfs : EventRun.exec (AuditSystem.step parseText) s fs = some s') :
    (∀ doc ∈ s.logs.rows, s'.logs.find? doc.auditId = some doc ∨
        ∃ workspaceId, .purge workspaceId ∈ fs ∧ doc.references workspaceId) ∧
      ∀ doc ∈ s'.logs.rows, ∃ event ∈ s'.stream, validateAuditEvent event = .ok () ∧
        event.lookup "audit_id" = some (.str doc.auditId) ∧
        ∃ now, auditDocument parseText now event = some doc := by
  constructor
  · intro doc hdoc
    have hkept : doc ∈ s'.logs.rows ∨
        ∃ workspaceId, .purge workspaceId ∈ fs ∧ doc.references workspaceId := by
      refine EventRun.exec_history
        (P := fun fs t => doc ∈ t.logs.rows ∨
          ∃ workspaceId, .purge workspaceId ∈ fs ∧ doc.references workspaceId)
        (Or.inl hdoc) (fun fs e t t' _ hkept hstep => ?_) hfs
      obtain hmem | ⟨workspaceId, hpurge, href⟩ := hkept
      · obtain hmem | ⟨workspaceId, rfl, href⟩ := mem_logs_of_step hstep hmem
        · exact Or.inl hmem
        · exact Or.inr ⟨workspaceId, by simp, href⟩
      · exact Or.inr ⟨workspaceId, List.mem_append_left _ hpurge, href⟩
    exact hkept.imp_left fun hmem => UniqueTable.find?_eq_some.mpr ⟨hmem, rfl⟩
  · intro doc hdoc
    obtain ⟨event, hevent, hvalid, now, hdocument⟩ :=
      (auditSound_exec (auditSound_exec auditSound_init hes) hfs).logs doc hdoc
    exact ⟨event, hevent, hvalid, auditDocument_auditId hdocument, now, hdocument⟩

/-- The event of a search with an API key. -/
def sampleAuditEvent : Message :=
  buildAuditEvent "a1" "r1" "t0" (AuditEvent.arguments {
    toolName := "search_documents", outcome := .ok, principalType := .apiKey
    principalId := "k1", userId := "u1", apiKeyId := "k1", queryText := "refund"
    resultCount := 1, returnedChunkIds := ["c1"], workspaceId := "ws"
    workspaceIds := ["ws"] } "12.5")

/-- It is published twice; the first handler loses the reply of the start, the write loses its
    result, and the second handler finds the workflow open. -/
def sampleAuditRun : List AuditAction :=
  [.publish sampleAuditEvent, .publish sampleAuditEvent, .deliver 0 true false,
    .attempt "audit-a1" "t1" .done, .attempt "audit-a1" "t2" .resultLost, .deliver 1 true true]

theorem audit_log_is_append_only_retried : ∃ s s',
    EventRun.exec (AuditSystem.step some) .init sampleAuditRun = some s ∧
      EventRun.exec (AuditSystem.step some) s [.attempt "audit-a1" "t3" .done] = some s' ∧
      (∀ doc ∈ s.logs.rows, s'.logs.find? doc.auditId = some doc ∨
        ∃ workspaceId, .purge workspaceId ∈ [AuditAction.attempt "audit-a1" "t3" .done] ∧
          doc.references workspaceId) ∧
      ∀ doc ∈ s'.logs.rows, ∃ event ∈ s'.stream, validateAuditEvent event = .ok () ∧
        event.lookup "audit_id" = some (.str doc.auditId) ∧
        ∃ now, auditDocument some now event = some doc :=
  ⟨_, _, rfl, rfl, @audit_log_is_append_only some _ _ sampleAuditRun
    [.attempt "audit-a1" "t3" .done] rfl rfl⟩

end

/-! ## Acknowledged events -/

/-- A failed attempt of an activity of the workflow. -/
def AuditAction.failsFor (workflowId : String) : AuditAction → Bool
  | .attempt id _ outcome => decide (id = workflowId ∧ outcome ≠ .done)
  | _ => false

/-- Number of failed attempts of the workflow's activities, over all of its runs. -/
def failedAttempts (workflowId : String) (es : List AuditAction) : Nat :=
  es.countP (AuditAction.failsFor workflowId)

/-- The failed attempts that it takes. -/
def AuditFailure.attempts : AuditFailure → Nat
  | .notValidated => 1
  | .writeExhausted => auditWriteAttempts

/-- What may have become of an event that is acknowledged; `purged` says whether a workspace
    that it names has been purged. -/
inductive Accounted (s : AuditSystem) (workflowId auditId : String) (purged : Prop) : Prop where
  | stored (h : s.logs.Holds auditId ∨ purged)
  | open (h : s.running.Holds workflowId)
  | failed (h : ∃ p ∈ s.failed, p.1.workflowId = workflowId)

/-- The invariant of durability, after `n` failed attempts. -/
structure Durable (workflowId auditId : String) (purged : Prop) (n : Nat) (s : AuditSystem) :
    Prop where
  write : ∀ w ∈ s.running.rows, w.workflowId = workflowId → ∀ left, w.stage = .write left →
    auditWriteAttempts ≤ left + n
  metric : ∀ w ∈ s.running.rows, w.workflowId = workflowId → ∀ left written,
    w.stage = .metric left written → s.logs.Holds auditId ∨ purged
  failed : ∀ p ∈ s.failed, p.1.workflowId = workflowId → p.2.attempts ≤ n
  bound : ∀ i ∈ s.acked, i < s.stream.length
  acked : ∀ i ∈ s.acked, ∀ message, s.stream[i]? = some message →
    auditWorkflowId message = some workflowId → Accounted s workflowId auditId purged

section

variable {parseText : String → Option String} {s s' : AuditSystem} {w : AuditWorkflow}
  {workflowId auditId : String} {purged purged' : Prop} {n n' : Nat}

theorem holds_of_grown {t u : UniqueTable AuditDocument.auditId} (h : t.rows <+: u.rows)
    {k : String} (hk : t.Holds k) : u.Holds k := by
  obtain ⟨doc, hdoc, rfl⟩ := UniqueTable.holds_iff.mp hk
  exact UniqueTable.holds_iff.mpr ⟨doc, h.subset hdoc, rfl⟩

/-- What an attempt of the workflow itself has to show. -/
structure OwnAttempt (workflowId auditId : String) (purged : Prop) (n : Nat) (s' : AuditSystem) :
    Prop where
  write : ∀ w ∈ s'.running.rows, w.workflowId = workflowId → ∀ left, w.stage = .write left →
    auditWriteAttempts ≤ left + n
  metric : ∀ w ∈ s'.running.rows, w.workflowId = workflowId → ∀ left written,
    w.stage = .metric left written → s'.logs.Holds auditId ∨ purged
  failed : ∀ p ∈ s'.failed, p.1.workflowId = workflowId → p.2.attempts ≤ n
  accounted : Accounted s' workflowId auditId purged

/-- The workflow goes on to a stage, after `n` failed attempts. -/
theorem OwnAttempt.toStage {stage : AuditStage} (hopen : s.running.Holds workflowId)
    (hfailed : ∀ p ∈ s.failed, p.1.workflowId = workflowId → p.2.attempts ≤ n)
    (hwrite : ∀ left, stage = .write left → auditWriteAttempts ≤ left + n)
    (hmetric : ∀ left written, stage = .metric left written → s.logs.Holds auditId ∨ purged) :
    OwnAttempt workflowId auditId purged n (s.toStage workflowId stage) where
  write v hv hid left hstage := by
    obtain ⟨-, rfl⟩ | ⟨hne, -⟩ := AuditSystem.mem_toStage hv
    · exact hwrite left hstage
    · exact absurd hid hne
  metric v hv hid left written hstage := by
    obtain ⟨-, rfl⟩ | ⟨hne, -⟩ := AuditSystem.mem_toStage hv
    · exact hmetric left written hstage
    · exact absurd hid hne
  failed := hfailed
  accounted := .open (AuditSystem.holds_toStage hopen)

/-- The workflow fails, after as many failed attempts as that takes. -/
theorem OwnAttempt.fail {failure : AuditFailure}
    (hfailed : ∀ p ∈ s.failed, p.1.workflowId = w.workflowId → p.2.attempts ≤ n)
    (hn : failure.attempts ≤ n) : OwnAttempt w.workflowId auditId purged n (s.fail w failure) where
  write v hv hid := absurd hid (UniqueTable.mem_erase.mp hv).2
  metric v hv hid := absurd hid (UniqueTable.mem_erase.mp hv).2
  failed p hp hid := by
    obtain hp | hp := List.mem_append.mp hp
    · exact hfailed p hp hid
    · rw [List.mem_singleton.mp hp]
      exact hn
  accounted := .failed ⟨(w, failure), List.mem_append_right _ (List.mem_singleton.mpr rfl), rfl⟩

/-- A failed attempt of the write, when there were `n` failed attempts before it. -/
theorem OwnAttempt.retryWrite {left : Nat} (hopen : s.running.Holds w.workflowId)
    (hfailed : ∀ p ∈ s.failed, p.1.workflowId = w.workflowId → p.2.attempts ≤ n)
    (hwrite : auditWriteAttempts ≤ left + n) :
    OwnAttempt w.workflowId auditId purged (n + 1) (s.retryWrite w (left - 1)) := by
  have hfailed' : ∀ p ∈ s.failed, p.1.workflowId = w.workflowId → p.2.attempts ≤ n + 1 :=
    fun p hp hid => (hfailed p hp hid).trans (Nat.le_succ n)
  match left with
  | 0 =>
    refine OwnAttempt.fail hfailed' ?_
    show auditWriteAttempts ≤ n + 1
    omega
  | 1 =>
    refine OwnAttempt.fail hfailed' ?_
    show auditWriteAttempts ≤ n + 1
    omega
  | left + 2 =>
    refine OwnAttempt.toStage hopen hfailed' (fun left' hstage => ?_) (fun _ _ h => (by cases h))
    obtain rfl : left + 1 = left' := by simpa using hstage
    omega

/-- An attempt of the workflow, for an event that is valid and has a document. -/
theorem OwnAttempt.of_activityStep (h : Durable w.workflowId auditId purged n s)
    (hmem : w ∈ s.running.rows) (hvalid : validateAuditEvent w.event = .ok ())
    (hdoc : ∀ now, ∃ doc, auditDocument parseText now w.event = some doc ∧
      doc.auditId = auditId) {now : String} {outcome : AttemptOutcome}
    (hstep : ActivityStep parseText s w now outcome s') :
    OwnAttempt w.workflowId auditId purged (n + if outcome = .done then 0 else 1) s' := by
  have hopen : s.running.Holds w.workflowId := UniqueTable.holds_iff.mpr ⟨w, hmem, rfl⟩
  have hfailed : ∀ p ∈ s.failed, p.1.workflowId = w.workflowId →
      p.2.attempts ≤ n + if outcome = .done then 0 else 1 :=
    fun p hp hid => (h.failed p hp hid).trans (Nat.le_add_right _ _)
  -- the document of the event, whenever it is made
  have hstored : ∀ {doc}, auditDocument parseText now w.event = some doc →
      (s.logs.insertNew doc).Holds auditId := by
    intro doc hmade
    obtain ⟨doc', hmade', rfl⟩ := hdoc now
    obtain rfl : doc' = doc := Option.some.inj (hmade'.symm.trans hmade)
    exact UniqueTable.holds_insertNew.mpr (Or.inr rfl)
  cases hstep with
  | validated hstage _ =>
    refine OwnAttempt.toStage hopen hfailed (fun left hleft => ?_) (fun _ _ h => (by cases h))
    obtain rfl : auditWriteAttempts = left := by simpa using hleft
    omega
  | notValidated hstage hnot =>
    refine OwnAttempt.fail hfailed ?_
    -- the event is valid, so the attempt has failed
    rw [if_neg fun hdone => hnot hdone hvalid]
    exact Nat.le_add_left 1 n
  | unwritable hstage hnone =>
    obtain ⟨doc, hmade, -⟩ := hdoc now
    rw [hnone] at hmade
    cases hmade
  | stored hstage hmade =>
    exact OwnAttempt.toStage hopen hfailed (fun _ h => (by cases h)) fun _ _ _ =>
      Or.inl (hstored hmade)
  | refused hstage =>
    exact OwnAttempt.retryWrite hopen h.failed (h.write w hmem rfl _ hstage)
  | resultLost hstage hmade =>
    exact OwnAttempt.retryWrite hopen h.failed (h.write w hmem rfl _ hstage)
  | closed hstage =>
    exact {
      write := fun v hv hid => absurd hid (UniqueTable.mem_erase.mp hv).2
      metric := fun v hv hid => absurd hid (UniqueTable.mem_erase.mp hv).2
      failed := hfailed
      accounted := .stored (h.metric w hmem rfl _ _ hstage) }
  | again hstage =>
    exact OwnAttempt.toStage hopen hfailed (fun _ h => (by cases h)) fun _ _ _ =>
      h.metric w hmem rfl _ _ hstage

/-- What is accounted for stays so when another workflow has an attempt. -/
theorem Accounted.frame (h : Accounted s workflowId auditId purged) (hframe : AttemptFrame w s s')
    (hne : workflowId ≠ w.workflowId) : Accounted s' workflowId auditId purged := by
  cases h with
  | stored h => exact .stored (h.imp_left (holds_of_grown hframe.logs))
  | «open» h => exact .open (hframe.holds workflowId hne h)
  | failed h =>
    obtain ⟨p, hp, hid⟩ := h
    exact .failed ⟨p, hframe.failed.subset hp, hid⟩

/-- An attempt of any workflow, whose event is the message when it is the workflow. -/
theorem Durable.attempt {message : Message} (h : Durable workflowId auditId purged n s)
    (hmem : w ∈ s.running.rows) (hevent : w.workflowId = workflowId → w.event = message)
    (hvalid : validateAuditEvent message = .ok ())
    (hdoc : ∀ now, ∃ doc, auditDocument parseText now message = some doc ∧ doc.auditId = auditId)
    {now : String} {outcome : AttemptOutcome}
    (hstep : ActivityStep parseText s w now outcome s') :
    Durable workflowId auditId purged
      (n + if w.workflowId = workflowId ∧ outcome ≠ .done then 1 else 0) s' := by
  have hframe := hstep.frame
  have hbound : ∀ i ∈ s'.acked, i < s'.stream.length := by
    rw [hframe.acked, hframe.stream]
    exact h.bound
  by_cases hid : w.workflowId = workflowId
  · subst hid
    have hown := OwnAttempt.of_activityStep h hmem (hevent rfl ▸ hvalid) (hevent rfl ▸ hdoc) hstep
    have hn : (n + if w.workflowId = w.workflowId ∧ outcome ≠ .done then 1 else 0) =
        n + if outcome = .done then 0 else 1 := by
      by_cases hdone : outcome = .done <;> simp [hdone]
    rw [hn]
    exact ⟨hown.write, hown.metric, hown.failed, hbound, fun _ _ _ _ _ => hown.accounted⟩
  · rw [if_neg fun hand => hid hand.1]
    have hne : workflowId ≠ w.workflowId := fun heq => hid heq.symm
    exact {
      write := fun v hv hvid => h.write v (hframe.running v hv (hvid ▸ hne)) hvid
      metric := fun v hv hvid left written hstage =>
        (h.metric v (hframe.running v hv (hvid ▸ hne)) hvid left written hstage).imp_left
          (holds_of_grown hframe.logs)
      failed := fun p hp hpid => h.failed p (hframe.of_failed p hp (hpid ▸ hne)) hpid
      bound := hbound
      acked := by
        rw [hframe.acked, hframe.stream]
        intro i hi m hm hmid
        exact (h.acked i hi m hm hmid).frame hframe hne }

/-- A new stream entry. -/
theorem Durable.publish (h : Durable workflowId auditId purged n s) (event : Message) :
    Durable workflowId auditId purged n { s with stream := s.stream ++ [event] } where
  write := h.write
  metric := h.metric
  failed := h.failed
  bound i hi := by
    rw [List.length_append]
    exact Nat.lt_add_right _ (h.bound i hi)
  acked i hi m hm hid := by
    rw [List.getElem?_append_left (h.bound i hi)] at hm
    -- the other tables are the same
    cases h.acked i hi m hm hid with
    | stored h => exact .stored h
    | «open» h => exact .open h
    | failed h => exact .failed h

/-- A workflow is started, unless it is open. -/
theorem Durable.start (h : Durable workflowId auditId purged n s) (id : String) (message : Message) :
    Durable workflowId auditId purged n
      { s with running := s.running.insertNew { workflowId := id, event := message } } where
  write v hv hid left hstage := by
    obtain hv | rfl := UniqueTable.mem_of_mem_insertNew hv
    · exact h.write v hv hid left hstage
    · cases hstage
  metric v hv hid left written hstage := by
    obtain hv | rfl := UniqueTable.mem_of_mem_insertNew hv
    · exact h.metric v hv hid left written hstage
    · cases hstage
  failed := h.failed
  bound := h.bound
  acked i hi m hm hid := by
    cases h.acked i hi m hm hid with
    | stored h => exact .stored h
    | «open» h => exact .open (UniqueTable.holds_insertNew.mpr (Or.inl h))
    | failed h => exact .failed h

/-- A handler returns, for an entry that is accounted for when it is the event's. -/
theorem Durable.ack (h : Durable workflowId auditId purged n s) {entry : Nat} {message : Message}
    (hentry : s.stream[entry]? = some message)
    (haccounted : auditWorkflowId message = some workflowId → Accounted s workflowId auditId purged) :
    Durable workflowId auditId purged n { s with acked := s.acked ++ [entry] } where
  write := h.write
  metric := h.metric
  failed := h.failed
  bound i hi := by
    obtain hi | hi := List.mem_append.mp hi
    · exact h.bound i hi
    · rw [List.mem_singleton.mp hi]
      exact (List.getElem?_eq_some_iff.mp hentry).1
  acked i hi m hm hid := by
    have hacc : Accounted s workflowId auditId purged := by
      obtain hi | hi := List.mem_append.mp hi
      · exact h.acked i hi m hm hid
      · rw [List.mem_singleton.mp hi] at hm
        obtain rfl : message = m := Option.some.inj (hentry.symm.trans hm)
        exact haccounted hid
    cases hacc with
    | stored h => exact .stored h
    | «open» h => exact .open h
    | failed h => exact .failed h

/-- More failed attempts, and more purges. -/
theorem Durable.mono (h : Durable workflowId auditId purged n s) (hpurged : purged → purged')
    (hn : n ≤ n') : Durable workflowId auditId purged' n' s where
  write v hv hid left hstage := (h.write v hv hid left hstage).trans (Nat.add_le_add_left hn left)
  metric v hv hid left written hstage := (h.metric v hv hid left written hstage).imp_right hpurged
  failed p hp hid := (h.failed p hp hid).trans hn
  bound := h.bound
  acked i hi m hm hid := by
    cases h.acked i hi m hm hid with
    | stored h => exact .stored (h.imp_right hpurged)
    | «open» h => exact .open h
    | failed h => exact .failed h

/-- A purge, that leaves the document of the event or counts as one of its purges. -/
theorem Durable.purge (h : Durable workflowId auditId purged n s) (workspaceId : String)
    (hdoc : ∀ doc ∈ s.logs.rows, doc.auditId = auditId → doc.references workspaceId → purged) :
    Durable workflowId auditId purged n
      { s with logs := s.logs.filter fun doc => !doc.references workspaceId } := by
  have hkept : s.logs.Holds auditId ∨ purged →
      (s.logs.filter fun doc => !doc.references workspaceId).Holds auditId ∨ purged := by
    rintro (hholds | hpurged)
    · obtain ⟨doc, hmem, hid⟩ := UniqueTable.holds_iff.mp hholds
      by_cases href : doc.references workspaceId = true
      · exact Or.inr (hdoc doc hmem hid href)
      · left
        exact UniqueTable.holds_iff.mpr
          ⟨doc, UniqueTable.mem_filter.mpr ⟨hmem, by simpa using href⟩, hid⟩
    · exact Or.inr hpurged
  exact {
    write := h.write
    metric := fun v hv hid left written hstage => hkept (h.metric v hv hid left written hstage)
    failed := h.failed
    bound := h.bound
    acked := by
      intro i hi m hm hid
      cases h.acked i hi m hm hid with
      | stored h => exact .stored (hkept h)
      | «open» h => exact .open h
      | failed h => exact .failed h }

theorem durable_init : Durable workflowId auditId purged 0 .init where
  write w hw := by cases hw
  metric w hw := by cases hw
  failed p hp := by cases hp
  bound i hi := by cases hi
  acked i hi := by cases hi

/-- The stream keeps its entries. -/
theorem mem_stream_of_step {e : AuditAction} (hstep : s.step parseText e = some s')
    {message : Message} (hmem : message ∈ s.stream) : message ∈ s'.stream := by
  cases e with
  | publish event =>
    simp only [AuditSystem.step, Option.some.injEq] at hstep
    exact hstep ▸ List.mem_append_left _ hmem
  | deliver entry started replied =>
    obtain ⟨message, -, rfl⟩ := Option.map_eq_some_iff.mp hstep
    cases auditWorkflowId message with
    | none => exact hmem
    | some workflowId => cases started <;> cases replied <;> exact hmem
  | attempt workflowId now outcome =>
    cases hfind : s.running.find? workflowId with
    | none =>
      simp only [AuditSystem.step, hfind, Option.some.injEq] at hstep
      exact hstep ▸ hmem
    | some w =>
      simp only [AuditSystem.step, hfind, Option.some.injEq] at hstep
      rw [← hstep, (activityStep parseText s w now outcome).frame.stream]
      exact hmem
  | purge workspaceId =>
    simp only [AuditSystem.step, Option.some.injEq] at hstep
    exact hstep ▸ hmem

/-- A document under the id of an event that is alone with it is the event's. -/
theorem document_of_message {message : Message} {doc : AuditDocument}
    (hsound : AuditSound parseText s) (hworkflow : auditWorkflowId message = some workflowId)
    (hid : message.lookup "audit_id" = some (.str auditId))
    (hfresh : ∀ m ∈ s.stream, auditWorkflowId m = some workflowId → m = message)
    (hmem : doc ∈ s.logs.rows) (hdoc : doc.auditId = auditId) :
    ∃ now, auditDocument parseText now message = some doc := by
  obtain ⟨event, hevent, -, now, hmade⟩ := hsound.logs doc hmem
  have hsame : auditWorkflowId event = auditWorkflowId message := by
    simp only [auditWorkflowId, auditDocument_auditId hmade, hid, hdoc]
  obtain rfl := hfresh event hevent (hsame.trans hworkflow)
  exact ⟨now, hmade⟩

/-- The events purge a workspace that the document of the message names. -/
def PurgedBy (parseText : String → Option String) (message : Message) (es : List AuditAction) :
    Prop :=
  ∃ workspaceId, .purge workspaceId ∈ es ∧
    ∃ now doc, auditDocument parseText now message = some doc ∧ doc.references workspaceId

/-- A step keeps the invariant of durability, and counts its failed attempt. -/
theorem durable_step {message : Message} {es : List AuditAction}
    (hworkflow : auditWorkflowId message = some workflowId)
    (hid : message.lookup "audit_id" = some (.str auditId))
    (hvalid : validateAuditEvent message = .ok ())
    (hdoc : ∀ now, ∃ doc, auditDocument parseText now message = some doc ∧ doc.auditId = auditId)
    (hsound : AuditSound parseText s)
    (h : Durable workflowId auditId (PurgedBy parseText message es) n s)
    (hfresh : ∀ m ∈ s.stream, auditWorkflowId m = some workflowId → m = message)
    {e : AuditAction} (hstep : s.step parseText e = some s') :
    Durable workflowId auditId (PurgedBy parseText message (es ++ [e]))
      (n + if e.failsFor workflowId then 1 else 0) s' := by
  have hmore : PurgedBy parseText message es → PurgedBy parseText message (es ++ [e]) := by
    rintro ⟨workspaceId, hpurge, hrest⟩
    exact ⟨workspaceId, List.mem_append_left _ hpurge, hrest⟩
  have h := h.mono hmore (le_refl n)
  cases e with
  | publish event =>
    simp only [AuditSystem.step, Option.some.injEq] at hstep
    exact hstep ▸ h.publish event
  | deliver entry started replied =>
    obtain ⟨m, hentry, rfl⟩ := Option.map_eq_some_iff.mp hstep
    cases hm : auditWorkflowId m with
    | none => exact h.ack hentry fun heq => (by simp [hm] at heq)
    | some id =>
      have hstarted := h.start id m
      cases started with
      | false => exact h
      | true =>
        cases replied with
        | false => exact hstarted
        | true =>
          -- the workflow of the entry is open when its handler returns
          refine hstarted.ack hentry fun heq => .open (UniqueTable.holds_insertNew.mpr (Or.inr ?_))
          exact (Option.some.inj (heq.symm.trans hm))
  | attempt id now outcome =>
    cases hfind : s.running.find? id with
    | none =>
      simp only [AuditSystem.step, hfind, Option.some.injEq] at hstep
      exact hstep ▸ h.mono (fun hp => hp) (Nat.le_add_right _ _)
    | some w =>
      simp only [AuditSystem.step, hfind, Option.some.injEq] at hstep
      obtain ⟨hmem, rfl⟩ := UniqueTable.find?_eq_some.mp hfind
      have hfits := hsound.running w hmem
      have hattempt := h.attempt hmem
        (fun heq => hfresh w.event hfits.published (heq ▸ hfits.id)) hvalid hdoc
        (activityStep parseText s w now outcome)
      rw [hstep] at hattempt
      simpa only [AuditAction.failsFor, decide_eq_true_eq] using hattempt
  | purge workspaceId =>
    simp only [AuditSystem.step, Option.some.injEq] at hstep
    subst hstep
    refine h.purge workspaceId fun doc hmem hdocid href => ?_
    obtain ⟨now, hmade⟩ := document_of_message hsound hworkflow hid hfresh hmem hdocid
    exact ⟨workspaceId, by simp, now, doc, hmade, href⟩

/-- The invariant of durability at the end of a run. -/
theorem durable_exec {message : Message} (hworkflow : auditWorkflowId message = some workflowId)
    (hid : message.lookup "audit_id" = some (.str auditId))
    (hvalid : validateAuditEvent message = .ok ())
    (hdoc : ∀ now, ∃ doc, auditDocument parseText now message = some doc ∧ doc.auditId = auditId)
    {es : List AuditAction} (hrun : EventRun.exec (AuditSystem.step parseText) .init es = some s)
    (hfresh : ∀ m ∈ s.stream, auditWorkflowId m = some workflowId → m = message) :
    Durable workflowId auditId (PurgedBy parseText message es) (failedAttempts workflowId es) s := by
  refine EventRun.exec_history
    (P := fun es t => (∀ m ∈ t.stream, auditWorkflowId m = some workflowId → m = message) →
      Durable workflowId auditId (PurgedBy parseText message es) (failedAttempts workflowId es) t)
    (fun _ => durable_init) (fun es e t t' hes ih hstep hfresh' => ?_) hrun hfresh
  have hfresh : ∀ m ∈ t.stream, auditWorkflowId m = some workflowId → m = message :=
    fun m hm => hfresh' m (mem_stream_of_step hstep hm)
  have hnext := durable_step hworkflow hid hvalid hdoc (auditSound_exec auditSound_init hes)
    (ih hfresh) hfresh hstep
  rw [failedAttempts, List.countP_append, List.countP_singleton]
  exact hnext

end

end Inherent
