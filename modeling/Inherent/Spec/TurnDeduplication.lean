import Inherent.ForStd.RecentSet
import Inherent.Spec.TurnDelivery

/-!
# Deduplication across continued runs

`_seen_turn_ids` is the set of the last ids that `add_turn` accepted, and
`continue_as_new` hands it to the next run, whose `run` loads it.  A turn whose id is
among the last `_SEEN_TURN_IDS_BOUND` accepted ones is therefore not buffered again, and
the set stays within the bound, in every run in which `run` has loaded what it was handed
before `add_turn` is handled.  A handler that comes first sees an empty set.
-/

namespace Inherent

open EventRun RecentSet

/-! ## The runs that `continue_as_new` chains -/

/-- A conversation over its continued runs.  `accepted` lists the ids of the turns that
    `add_turn` has buffered in any of them, newest first; no code reads it. -/
structure ContinuedRuns where
  run : ConversationRun
  accepted : List String := []

/-- What can happen in a chain of continued runs. -/
inductive ContinuedEvent where
  /-- An event of the current run. -/
  | workflow (e : WorkflowEvent)
  /-- The next run is created with the input that `continue_as_new` was given. -/
  | continueAsNew (workflowRunId : RunId) (now : Timestamp)

namespace ContinuedRuns

/-- The ids of the turns that the event makes `add_turn` buffer. -/
def acceptedIds (s : ContinuedRuns) : ContinuedEvent → List String
  | .workflow e => (s.run.accepted e).map BufferedTurn.turnId
  | .continueAsNew .. => []

/-- One event.  `none`: it cannot happen in the state. -/
def step (s : ContinuedRuns) : ContinuedEvent → Option ContinuedRuns
  | .workflow e =>
    (s.run.step e).map fun run =>
      { run := run, accepted := s.acceptedIds (.workflow e) ++ s.accepted }
  | .continueAsNew workflowRunId now =>
    match s.run.await with
    | .ended (.continuedAsNew input) => some { s with run := .new input workflowRunId now }
    | _ => none

/-- A conversation whose first run has been created. -/
def start (input : ConversationMemoryInput) (workflowRunId : RunId) (now : Timestamp) :
    ContinuedRuns where
  run := .new input workflowRunId now

/-- No turn that the event makes `add_turn` buffer has an id among the last accepted
    ones. -/
def NotBufferedAgain (s : ContinuedRuns) (e : ContinuedEvent) : Prop :=
  ∀ id ∈ s.acceptedIds e, id ∉ recent seenTurnIdsBound s.accepted

instance (s : ContinuedRuns) (e : ContinuedEvent) : Decidable (NotBufferedAgain s e) :=
  inferInstanceAs (Decidable (∀ id ∈ s.acceptedIds e, id ∉ recent seenTurnIdsBound s.accepted))

/-- `add_turn` is not handled before `run` has loaded the ids that it was handed. -/
def LoadedFirst (s : ContinuedRuns) : ContinuedEvent → Prop
  | .workflow (.addTurn _) => s.run.await = .notStarted → s.run.input.seenTurnIds = []
  | _ => True

instance (s : ContinuedRuns) : ∀ e, Decidable (LoadedFirst s e)
  | .workflow (.addTurn _) =>
    inferInstanceAs (Decidable (s.run.await = .notStarted → s.run.input.seenTurnIds = []))
  | .workflow .close | .workflow .start | .workflow (.tick _) | .workflow .conditionMet
  | .workflow .timeout | .workflow (.ensureTenantReady _) | .workflow (.redactTurns _)
  | .workflow (.chunkConversation _) | .workflow (.store ..)
  | .workflow (.updateWorkspaceStats _) | .workflow (.recordDeadLetter _)
  | .workflow (.cleanupStaging _) | .workflow (.publishCompletion _)
  | .continueAsNew .. => isTrue trivial

end ContinuedRuns

/-! ## The seen set of a run -/

namespace ConversationMemoryWorkflow

/-- `add_turn` adds the id of a turn that it has not seen. -/
theorem addTurn_seenTurnIds (w : ConversationMemoryWorkflow) (now : Timestamp)
    (turn : ConversationTurnSignal) :
    (w.addTurn now turn).seenTurnIds =
      if turn.turnId ∈ w.seenTurnIds then w.seenTurnIds
      else push seenTurnIdsBound w.seenTurnIds turn.turnId := by
  unfold addTurn
  split
  · rfl
  · rfl

/-- The loop of `run` adds the ids of its input, without a bound. -/
theorem begin_seenTurnIds (w : ConversationMemoryWorkflow) (input : ConversationMemoryInput)
    (now : Timestamp) :
    (w.begin input now).seenTurnIds = insertAll w.seenTurnIds input.seenTurnIds := rfl

/-- An id that was accepted before a full list is loaded makes one too many. -/
theorem length_begin_seenTurnIds {w : ConversationMemoryWorkflow}
    {input : ConversationMemoryInput} {now : Timestamp} {turnId : String}
    (hw : w.seenTurnIds = [turnId]) (hnodup : input.seenTurnIds.Nodup)
    (hfull : input.seenTurnIds.length = seenTurnIdsBound) (hnew : turnId ∉ input.seenTurnIds) :
    (w.begin input now).seenTurnIds.length = seenTurnIdsBound + 1 := by
  have happend : insertAll [turnId] input.seenTurnIds = [turnId] ++ input.seenTurnIds := by
    apply insertAll_eq_append hnodup
    intro id hid hmem
    exact hnew (List.mem_singleton.mp hmem ▸ hid)
  -- nothing evicts the oldest id when a list is loaded
  rw [begin_seenTurnIds, hw, happend, List.length_append, hfull, List.length_singleton,
    Nat.add_comm]

end ConversationMemoryWorkflow

namespace ConversationRun

@[simp] theorem begin_seenTurnIds (s : ConversationRun) :
    s.begin.self.seenTurnIds = insertAll s.self.seenTurnIds s.input.seenTurnIds := by
  unfold begin
  dsimp only
  split
  · rfl
  · rw [loop_self]
    rfl

@[simp] theorem flush_seenTurnIds (s : ConversationRun) :
    s.flush.self.seenTurnIds = s.self.seenTurnIds := by
  unfold flush
  split
  · rw [afterFlush_self]
    rfl
  · rfl

@[simp] theorem afterChunk_seenTurnIds (s : ConversationRun) (flush : Flush)
    (result : ActivityResult Nat) :
    (s.afterChunk flush result).self.seenTurnIds = s.self.seenTurnIds := by
  cases result with
  | failed error => rfl
  | ok chunkCount =>
    unfold afterChunk
    dsimp only
    split
    · rw [afterFlush_self]
    · rfl

@[simp] theorem afterStore_seenTurnIds (s : ConversationRun) (flush : Flush)
    (input : StoreDocumentInput) (pg wv : Option StoreDocumentOutput) (target : StoreTarget)
    (result : ActivityResult StoreDocumentOutput) :
    (s.afterStore flush input pg wv target result).self.seenTurnIds = s.self.seenTurnIds := by
  cases result with
  | failed error => rfl
  | ok output =>
    unfold afterStore
    dsimp only
    split <;> rfl

/-! ## What a run hands over -/

/-- The run has been called, and if it has continued as new, then with its seen set. -/
def HandsOver (s : ConversationRun) : Prop :=
  s.await ≠ .notStarted ∧ ∀ input, s.await = .ended (.continuedAsNew input) →
    input.seenTurnIds = s.self.seenTurnIds

theorem handsOver_loop (s : ConversationRun) : s.loop.HandsOver := by
  unfold loop
  dsimp only
  split
  · split
    · exact ⟨nofun, nofun⟩
    · exact ⟨nofun, nofun⟩
  · exact ⟨nofun, nofun⟩

theorem handsOver_afterFlush (s : ConversationRun) (turns : List BufferedTurn) :
    (s.afterFlush turns).HandsOver := by
  unfold afterFlush
  dsimp only
  split
  · exact ⟨nofun, nofun⟩
  · split
    · refine ⟨nofun, ?_⟩
      intro input h
      -- `continue_as_new` takes the seen set as it is now
      cases h
      rfl
    · exact handsOver_loop _

theorem handsOver_flush (s : ConversationRun) : s.flush.HandsOver := by
  unfold flush
  split
  · exact handsOver_afterFlush _ _
  · exact ⟨nofun, nofun⟩

/-- Where the run is suspended, if it is inside its loop. -/
private theorem handsOver_of_await {s : ConversationRun} (hstart : s.await ≠ .notStarted)
    (hend : ∀ outcome, s.await ≠ .ended outcome) : s.HandsOver :=
  ⟨hstart, fun input h => absurd h (hend (.continuedAsNew input))⟩

/-- Every event but a signal and the clock leaves the run so. -/
theorem handsOver_of_step {s s' : ConversationRun} {e : WorkflowEvent}
    (h : s.step e = some s') (hadd : ∀ turn, e ≠ .addTurn turn) (hclose : e ≠ .close)
    (htick : ∀ now, e ≠ .tick now) : s'.HandsOver := by
  cases transition_of_step h with
  | addTurn turn => exact absurd rfl (hadd turn)
  | close => exact absurd rfl hclose
  | tick now => exact absurd rfl (htick now)
  | start =>
    unfold begin
    dsimp only
    split
    · exact ⟨nofun, nofun⟩
    · exact handsOver_loop _
  | idleMet =>
    unfold afterIdle
    split
    · exact ⟨nofun, nofun⟩
    · exact handsOver_loop s
  | debounceMet => exact handsOver_flush s
  | debounceTimeout => exact handsOver_flush s
  | idleTimeout => exact ⟨nofun, nofun⟩
  | tenantReady => exact handsOver_loop _
  | tenantFailed => exact ⟨nofun, nofun⟩
  | redacted turns result =>
    cases result with
    | failed error => exact ⟨nofun, nofun⟩
    | ok output =>
      unfold afterRedact
      dsimp only
      split
      · exact handsOver_afterFlush s turns
      · exact ⟨nofun, nofun⟩
  | chunked flush result =>
    cases result with
    | failed error => exact ⟨nofun, nofun⟩
    | ok chunkCount =>
      unfold afterChunk
      dsimp only
      split
      · exact handsOver_afterFlush s flush.turns
      · exact ⟨nofun, nofun⟩
  | stored flush input pg wv target result =>
    -- a run whose stores return goes on with its flush
    obtain ⟨pg', wv', hs⟩ | hs | ⟨job, hs⟩ := afterStore_await s flush input pg wv target result
    all_goals exact handsOver_of_await (by rw [hs]; nofun) (by rw [hs]; nofun)
  | statsUpdated flush result =>
    obtain hs | ⟨job, hs⟩ := afterStats_await s flush result
    all_goals exact handsOver_of_await (by rw [hs]; nofun) (by rw [hs]; nofun)
  | deadLettered turns => exact handsOver_afterFlush s turns
  | cleaned turns => exact handsOver_afterFlush s turns
  | published => exact ⟨nofun, nofun⟩

/-- Only signals, the clock and the start can happen before `run` is called. -/
theorem started_of_step {s s' : ConversationRun} {e : WorkflowEvent}
    (h : s.step e = some s') (hadd : ∀ turn, e ≠ .addTurn turn) (hclose : e ≠ .close)
    (htick : ∀ now, e ≠ .tick now) (hstart : e ≠ .start) : s.await ≠ .notStarted := by
  intro hs
  cases e with
  | addTurn turn => exact hadd turn rfl
  | close => exact hclose rfl
  | tick now => exact htick now rfl
  | start => exact hstart rfl
  | _ => simp [step, hs] at h

/-- Only `add_turn` and the start of `run` change the seen set. -/
theorem seenTurnIds_of_step {s s' : ConversationRun} {e : WorkflowEvent}
    (h : s.step e = some s') (hadd : ∀ turn, e ≠ .addTurn turn) (hstart : e ≠ .start) :
    s'.self.seenTurnIds = s.self.seenTurnIds := by
  cases transition_of_step h with
  | addTurn turn => exact absurd rfl (hadd turn)
  | start => exact absurd rfl hstart
  | idleMet => rw [afterIdle_self]
  | debounceMet => exact flush_seenTurnIds s
  | debounceTimeout => exact flush_seenTurnIds s
  | tenantReady => rw [loop_self]
  | redacted turns result => rw [afterRedact_self]
  | chunked flush result => exact afterChunk_seenTurnIds s flush result
  | stored flush input pg wv target result => exact afterStore_seenTurnIds s _ _ _ _ _ _
  | statsUpdated flush result => rw [afterStats_self]
  | deadLettered turns => rw [afterFlush_self]
  | cleaned turns => rw [afterFlush_self]
  | _ => rfl

end ConversationRun

/-! ## What one event preserves -/

namespace ContinuedRuns

/-- The seen set, with what `run` has yet to load of it, is the set of the last accepted
    ids. -/
structure Remembers (s : ContinuedRuns) : Prop where
  /-- Once `run` has been called, the seen set is that set. -/
  loaded : s.run.await ≠ .notStarted →
    s.run.self.seenTurnIds.reverse = recent seenTurnIdsBound s.accepted
  /-- Before, one of the seen set and the input is, and the other is empty. -/
  unloaded : s.run.await = .notStarted →
    (s.run.self.seenTurnIds ++ s.run.input.seenTurnIds).reverse =
        recent seenTurnIdsBound s.accepted ∧
      (s.run.self.seenTurnIds = [] ∨ s.run.input.seenTurnIds = [])
  handed : ∀ input, s.run.await = .ended (.continuedAsNew input) →
    input.seenTurnIds = s.run.self.seenTurnIds

theorem acceptedIds_addTurn (s : ContinuedRuns) (turn : ConversationTurnSignal) :
    s.acceptedIds (.workflow (.addTurn turn)) =
      if turn.turnId ∈ s.run.self.seenTurnIds then [] else [turn.turnId] := by
  unfold acceptedIds ConversationRun.accepted
  dsimp only
  split <;> rfl

/-- When `add_turn` is handled, the seen set is the set of the last accepted ids. -/
private theorem seenTurnIds_of_loadedFirst {s : ContinuedRuns} {turn : ConversationTurnSignal}
    (h : Remembers s) (hfirst : LoadedFirst s (.workflow (.addTurn turn))) :
    s.run.self.seenTurnIds.reverse = recent seenTurnIdsBound s.accepted := by
  by_cases hs : s.run.await = .notStarted
  · -- `run` has nothing to load, so the seen set is complete before it is called
    have hseen := (h.unloaded hs).1
    rw [hfirst hs, List.append_nil] at hseen
    exact hseen
  · exact h.loaded hs

/-- The seen set is within the bound. -/
theorem length_seenTurnIds_le {s : ContinuedRuns} (h : Remembers s) :
    s.run.self.seenTurnIds.length ≤ seenTurnIdsBound := by
  by_cases hs : s.run.await = .notStarted
  · have hlen := congrArg List.length (h.unloaded hs).1
    have hle := length_recent_le seenTurnIdsBound s.accepted
    rw [List.length_reverse, List.length_append] at hlen
    omega
  · rw [← List.length_reverse, h.loaded hs]
    exact length_recent_le seenTurnIdsBound s.accepted

/-- Loading what was handed over gives the set of the last accepted ids. -/
private theorem insertAll_of_remembers {s : ContinuedRuns} (h : Remembers s)
    (hs : s.run.await = .notStarted) :
    (insertAll s.run.self.seenTurnIds s.run.input.seenTurnIds).reverse =
      recent seenTurnIdsBound s.accepted := by
  obtain ⟨hseen, hempty⟩ := h.unloaded hs
  have hnodup : (s.run.self.seenTurnIds ++ s.run.input.seenTurnIds).Nodup := by
    rw [← List.nodup_reverse, hseen]
    exact nodup_recent seenTurnIdsBound s.accepted
  rw [insertAll_eq_append (List.nodup_append.mp hnodup).2.1, hseen]
  intro id hid hmem
  -- no id is in both, as one of the two is empty
  cases hempty with
  | inl hself => rw [hself] at hmem; cases hmem
  | inr hinput => rw [hinput] at hid; cases hid

private theorem remembers_addTurn {s : ContinuedRuns} {turn : ConversationTurnSignal}
    (h : Remembers s) (hfirst : LoadedFirst s (.workflow (.addTurn turn)))
    (hend : ∀ outcome, s.run.await ≠ .ended outcome) :
    Remembers { run := { s.run with self := s.run.self.addTurn s.run.now turn }
                accepted := s.acceptedIds (.workflow (.addTurn turn)) ++ s.accepted } := by
  have hseen := seenTurnIds_of_loadedFirst h hfirst
  have hnew : (s.run.self.addTurn s.run.now turn).seenTurnIds.reverse = recent seenTurnIdsBound
      (s.acceptedIds (.workflow (.addTurn turn)) ++ s.accepted) := by
    rw [ConversationMemoryWorkflow.addTurn_seenTurnIds, acceptedIds_addTurn]
    split
    · exact hseen
    · rename_i hmem
      exact reverse_push hseen hmem
  refine ⟨fun _ => hnew, ?_, fun input hs => absurd hs (hend _)⟩
  -- a handler that comes before `run` has an input without ids
  intro hs
  have hinput : s.run.input.seenTurnIds = [] := hfirst hs
  dsimp only
  rw [hinput, List.append_nil]
  exact ⟨hnew, Or.inr rfl⟩

/-- Signals, the clock and the code of `run` keep the memory. -/
private theorem remembers_workflow {s : ContinuedRuns} {run : ConversationRun}
    {e : WorkflowEvent} (h : Remembers s) (hfirst : LoadedFirst s (.workflow e))
    (hstep : s.run.step e = some run) :
    Remembers { run := run, accepted := s.acceptedIds (.workflow e) ++ s.accepted } := by
  -- the code of `run` goes on, or a signal or the clock comes in between
  by_cases hother : (∀ turn, e ≠ .addTurn turn) ∧ e ≠ .close ∧ (∀ now, e ≠ .tick now)
  · obtain ⟨hadd, hclose, htick⟩ := hother
    obtain ⟨hne, hhanded⟩ := ConversationRun.handsOver_of_step hstep hadd hclose htick
    have hnone : s.acceptedIds (.workflow e) = [] := by
      cases e with
      | addTurn turn => exact absurd rfl (hadd turn)
      | _ => rfl
    rw [hnone, List.nil_append]
    refine ⟨fun _ => ?_, fun hs => absurd hs hne, hhanded⟩
    -- `run` loads its input at its start, and nothing else touches the set
    by_cases hstart : e = .start
    · subst hstart
      cases ConversationRun.transition_of_step hstep with
      | start hs =>
        rw [ConversationRun.begin_seenTurnIds]
        exact insertAll_of_remembers h hs
    · dsimp only
      rw [ConversationRun.seenTurnIds_of_step hstep hadd hstart]
      exact h.loaded (ConversationRun.started_of_step hstep hadd hclose htick hstart)
  · cases ConversationRun.transition_of_step hstep with
    | addTurn turn hend => exact remembers_addTurn h hfirst hend
    | close hend => exact ⟨h.loaded, h.unloaded, h.handed⟩
    | tick now hle => exact ⟨h.loaded, h.unloaded, h.handed⟩
    | _ => exact absurd ⟨nofun, nofun, nofun⟩ hother

/-- The next run has yet to load the seen set that it was handed. -/
private theorem remembers_new {s : ContinuedRuns} {input : ConversationMemoryInput}
    (h : Remembers s) (hs : s.run.await = .ended (.continuedAsNew input)) (runId : RunId)
    (now : Timestamp) : Remembers { s with run := .new input runId now } where
  loaded hne := absurd rfl hne
  unloaded _ := by
    refine ⟨?_, Or.inl rfl⟩
    have hne : s.run.await ≠ .notStarted := by rw [hs]; nofun
    -- the set of the new run is empty, and its input is the set of the last one
    rw [← h.loaded hne, ← h.handed input hs]
    rfl
  handed _ hnext := by cases hnext

/-- Every event keeps the memory, if no `add_turn` comes before the load. -/
theorem remembers_step {s s' : ContinuedRuns} {e : ContinuedEvent} (h : Remembers s)
    (hfirst : LoadedFirst s e) (hstep : s.step e = some s') : Remembers s' := by
  cases e with
  | workflow e =>
    obtain ⟨run, hrun, rfl⟩ := Option.map_eq_some_iff.mp hstep
    exact remembers_workflow h hfirst hrun
  | continueAsNew runId now =>
    simp only [step] at hstep
    split at hstep
    · rename_i input hs
      cases hstep
      exact remembers_new h hs runId now
    · cases hstep

/-- A turn that is buffered is not among the last accepted ones. -/
theorem notBufferedAgain_of_remembers {s : ContinuedRuns} {e : ContinuedEvent}
    (h : Remembers s) (hfirst : LoadedFirst s e) : NotBufferedAgain s e := by
  intro id hid
  cases e with
  | continueAsNew => cases hid
  | workflow e =>
    cases e with
    | addTurn turn =>
      have hseen := seenTurnIds_of_loadedFirst h hfirst
      rw [acceptedIds_addTurn] at hid
      split at hid
      · cases hid
      · -- `add_turn` looks the id up in the seen set
        rename_i hnot
        rw [List.mem_singleton.mp hid, ← hseen, List.mem_reverse]
        exact hnot
    | _ => cases hid

/-! ## Every run -/

theorem remembers_start {input : ConversationMemoryInput} (hnew : input.seenTurnIds = [])
    (runId : RunId) (now : Timestamp) : Remembers (start input runId now) where
  loaded hne := absurd rfl hne
  unloaded _ := by
    refine ⟨?_, Or.inl rfl⟩
    show ([] ++ input.seenTurnIds).reverse = _
    rw [hnew]
    rfl
  handed _ hnext := by cases hnext

/-- Over any number of continued runs of a conversation, and whatever else happens in them:
    if `add_turn` is never handled before `run` has loaded the ids that it was handed, then
    no turn whose id is among the last accepted ones is buffered again, and the seen set
    keeps its bound. -/
theorem deduplicated_of_loadedFirst (input : ConversationMemoryInput)
    (hnew : input.seenTurnIds = []) (runId : RunId) (now : Timestamp)
    (es : List ContinuedEvent) (s : ContinuedRuns)
    (hrun : exec step (start input runId now) es = some s)
    (hfirst : AllSteps step LoadedFirst (start input runId now) es) :
    AllSteps step NotBufferedAgain (start input runId now) es ∧
      s.run.self.seenTurnIds.length ≤ seenTurnIdsBound := by
  have hinit := remembers_start hnew runId now
  constructor
  · exact allSteps_imp_of_invariant (fun _ _ _ h hC hstep => remembers_step h hC hstep)
      (fun _ _ _ h hC _ => notBufferedAgain_of_remembers h hC) hinit hfirst hrun
  · exact length_seenTurnIds_le (exec_invariant_of_allSteps
      (fun _ _ _ h hC hstep => remembers_step h hC hstep) hinit hfirst hrun)

/-- One turn that is flushed, and the next run. -/
def continuedOnce : List ContinuedEvent :=
  ConversationRun.sampleDelivery.map .workflow ++ [.continueAsNew "run2" 0]

/-- The turn is sent again. -/
def resend : ContinuedEvent := .workflow (.addTurn (ConversationRun.sampleTurn "t1" "hi"))

theorem deduplicated_resendAfterStart :
    ∃ s, exec step (start ConversationRun.sampleInput "run" 0)
        (continuedOnce ++ [.workflow .start, resend]) = some s ∧
      AllSteps step NotBufferedAgain (start ConversationRun.sampleInput "run" 0)
          (continuedOnce ++ [.workflow .start, resend]) ∧
        s.run.self.seenTurnIds.length ≤ seenTurnIdsBound :=
  ⟨_, rfl, deduplicated_of_loadedFirst ConversationRun.sampleInput rfl "run" 0 _ _ rfl
    (by decide)⟩

/-- A resend that is handled before `run` in the continued run is buffered again. -/
theorem not_deduplicated_resendBeforeStart :
    ¬ ∀ (input : ConversationMemoryInput), input.seenTurnIds = [] →
      ∀ (runId : RunId) (now : Timestamp) (es : List ContinuedEvent) (s : ContinuedRuns),
        exec step (start input runId now) es = some s →
        AllSteps step NotBufferedAgain (start input runId now) es ∧
          s.run.self.seenTurnIds.length ≤ seenTurnIdsBound := by
  intro h
  have hagain := (h ConversationRun.sampleInput rfl "run" 0 (continuedOnce ++ [resend]) _ rfl).1
  revert hagain
  decide

end ContinuedRuns

end Inherent
