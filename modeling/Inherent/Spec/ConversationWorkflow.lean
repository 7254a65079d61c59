import Inherent.Native.ConversationWorkflow

/-!
# What one event does to a conversation run

`Transition` lists the events that a suspended run accepts with the state each leaves it
in, and `transition_of_step` is the inversion of `step` that the results about runs
start from.  The lemmas after it say what the code between two `await`s keeps.
-/

namespace Inherent

namespace ConversationRun

/-- `s.Transition e s'`: the event `e` resumes the run `s`, or runs a handler in it, and
    leaves it suspended as `s'`. -/
inductive Transition (s : ConversationRun) : WorkflowEvent → ConversationRun → Prop where
  | addTurn (turn : ConversationTurnSignal) (h : ∀ outcome, s.await ≠ .ended outcome) :
      Transition s (.addTurn turn) { s with self := s.self.addTurn s.now turn }
  | close (h : ∀ outcome, s.await ≠ .ended outcome) :
      Transition s .close { s with self := s.self.close }
  | tick (now : Timestamp) (h : s.now ≤ now) : Transition s (.tick now) { s with now := now }
  | start (h : s.await = .notStarted) : Transition s .start s.begin
  | idleMet (deadline : Timestamp) (h : s.await = .idle deadline) (hc : s.condition = true) :
      Transition s .conditionMet s.afterIdle
  | debounceMet (deadline : Timestamp) (h : s.await = .debounce deadline)
      (hc : s.condition = true) : Transition s .conditionMet s.flush
  | idleTimeout (deadline : Timestamp) (h : s.await = .idle deadline)
      (hc : s.condition = false) (hd : deadline ≤ s.now) : Transition s .timeout s.finalize
  | debounceTimeout (deadline : Timestamp) (h : s.await = .debounce deadline)
      (hc : s.condition = false) (hd : deadline ≤ s.now) : Transition s .timeout s.flush
  | tenantReady (tenantId : Option Nat) (h : s.await = .ensureTenantReady) :
      Transition s (.ensureTenantReady (.ok tenantId))
        { s with self := { s.self with tenantId := tenantId } }.loop
  | tenantFailed (error : String) (h : s.await = .ensureTenantReady) :
      Transition s (.ensureTenantReady (.failed error)) { s with await := .ended (.failed error) }
  | redacted (turns : List BufferedTurn) (result : ActivityResult RedactTurnsOutput)
      (h : s.await = .redactTurns turns) :
      Transition s (.redactTurns result) (s.afterRedact turns result)
  | chunked (flush : Flush) (result : ActivityResult Nat) (h : s.await = .chunkConversation flush) :
      Transition s (.chunkConversation result) (s.afterChunk flush result)
  | stored (flush : Flush) (input : StoreDocumentInput) (pg wv : Option StoreDocumentOutput)
      (target : StoreTarget) (result : ActivityResult StoreDocumentOutput)
      (h : s.await = .store flush input pg wv) (hw : awaitsStore pg wv target = true) :
      Transition s (.store target result) (s.afterStore flush input pg wv target result)
  | statsUpdated (flush : Flush) (result : ActivityResult Unit)
      (h : s.await = .updateWorkspaceStats flush) :
      Transition s (.updateWorkspaceStats result) (s.afterStats flush result)
  | deadLettered (turns : List BufferedTurn) (job : DeadLetterJob)
      (result : ActivityResult Unit) (h : s.await = .recordDeadLetter turns job) :
      Transition s (.recordDeadLetter result) (s.afterFlush turns)
  | cleaned (turns : List BufferedTurn) (result : ActivityResult Unit)
      (h : s.await = .cleanupStaging turns) :
      Transition s (.cleanupStaging result) (s.afterFlush turns)
  | published (result : ActivityResult Unit) (h : s.await = .publishCompletion) :
      Transition s (.publishCompletion result) { s with await := .ended .completed }

/-- Every step of the run is one of the transitions. -/
theorem transition_of_step {s s' : ConversationRun} {e : WorkflowEvent}
    (h : s.step e = some s') : s.Transition e s' := by
  cases e with
  | addTurn turn =>
    simp only [step] at h
    split at h
    · exact nomatch h
    · rename_i hne
      obtain rfl := Option.some.inj h
      exact .addTurn turn hne
  | close =>
    simp only [step] at h
    split at h
    · exact nomatch h
    · rename_i hne
      obtain rfl := Option.some.inj h
      exact .close hne
  | tick now =>
    simp only [step] at h
    split at h
    · rename_i hle
      obtain rfl := Option.some.inj h
      exact .tick now hle
    · exact nomatch h
  | start =>
    simp only [step] at h
    split at h
    · rename_i hs
      obtain rfl := Option.some.inj h
      exact .start hs
    · exact nomatch h
  | conditionMet =>
    simp only [step] at h
    split at h
    · rename_i deadline hs
      split at h
      · rename_i hc
        obtain rfl := Option.some.inj h
        exact .idleMet deadline hs hc
      · exact nomatch h
    · rename_i deadline hs
      split at h
      · rename_i hc
        obtain rfl := Option.some.inj h
        exact .debounceMet deadline hs hc
      · exact nomatch h
    · exact nomatch h
  | timeout =>
    simp only [step] at h
    split at h
    · rename_i deadline hs
      split at h
      · rename_i hc
        obtain rfl := Option.some.inj h
        exact .idleTimeout deadline hs (eq_false_of_ne_true hc.1) hc.2
      · exact nomatch h
    · rename_i deadline hs
      split at h
      · rename_i hc
        obtain rfl := Option.some.inj h
        exact .debounceTimeout deadline hs (eq_false_of_ne_true hc.1) hc.2
      · exact nomatch h
    · exact nomatch h
  | ensureTenantReady result =>
    simp only [step] at h
    split at h
    · rename_i tenantId hs
      obtain rfl := Option.some.inj h
      exact .tenantReady tenantId hs
    · rename_i error hs
      obtain rfl := Option.some.inj h
      exact .tenantFailed error hs
    · exact nomatch h
  | redactTurns result =>
    simp only [step] at h
    split at h
    · rename_i turns hs
      obtain rfl := Option.some.inj h
      exact .redacted turns result hs
    · exact nomatch h
  | chunkConversation result =>
    simp only [step] at h
    split at h
    · rename_i flush hs
      obtain rfl := Option.some.inj h
      exact .chunked flush result hs
    · exact nomatch h
  | store target result =>
    simp only [step] at h
    split at h
    · rename_i flush input pg wv hs
      split at h
      · rename_i hw
        obtain rfl := Option.some.inj h
        exact .stored flush input pg wv target result hs hw
      · exact nomatch h
    · exact nomatch h
  | updateWorkspaceStats result =>
    simp only [step] at h
    split at h
    · rename_i flush hs
      obtain rfl := Option.some.inj h
      exact .statsUpdated flush result hs
    · exact nomatch h
  | recordDeadLetter result =>
    simp only [step] at h
    split at h
    · rename_i turns job hs
      obtain rfl := Option.some.inj h
      exact .deadLettered turns job result hs
    · exact nomatch h
  | cleanupStaging result =>
    simp only [step] at h
    split at h
    · rename_i turns hs
      obtain rfl := Option.some.inj h
      exact .cleaned turns result hs
    · exact nomatch h
  | publishCompletion result =>
    simp only [step] at h
    split at h
    · rename_i hs
      obtain rfl := Option.some.inj h
      exact .published result hs
    · exact nomatch h

/-! ## What the code between two `await`s keeps -/

@[simp] theorem finalize_self (s : ConversationRun) : s.finalize.self = s.self := rfl

@[simp] theorem loop_self (s : ConversationRun) : s.loop.self = s.self := by
  unfold loop
  dsimp only
  split
  · split <;> rfl
  · rfl

@[simp] theorem begin_buffer (s : ConversationRun) : s.begin.self.buffer = s.self.buffer := by
  unfold begin
  dsimp only
  split
  · rfl
  · rw [loop_self]; rfl

@[simp] theorem afterIdle_self (s : ConversationRun) : s.afterIdle.self = s.self := by
  unfold afterIdle
  split
  · rfl
  · exact loop_self s

@[simp] theorem afterFlush_self (s : ConversationRun) (turns : List BufferedTurn) :
    (s.afterFlush turns).self = s.self := by
  unfold afterFlush
  dsimp only
  split
  · rfl
  · split
    · rfl
    · exact loop_self _

@[simp] theorem flush_buffer (s : ConversationRun) : s.flush.self.buffer = [] := by
  unfold flush
  split
  · rw [afterFlush_self]; rfl
  · rfl

@[simp] theorem deadLetterFlush_self (s : ConversationRun) (turns : List BufferedTurn)
    (error stage : String) (redacted : Option (List RedactedTurn)) :
    (s.deadLetterFlush turns error stage redacted).self = s.self := rfl

@[simp] theorem afterRedact_self (s : ConversationRun) (turns : List BufferedTurn)
    (result : ActivityResult RedactTurnsOutput) : (s.afterRedact turns result).self = s.self := by
  cases result with
  | failed error => rfl
  | ok output =>
    unfold afterRedact
    dsimp only
    split
    · exact afterFlush_self s turns
    · rfl

@[simp] theorem afterChunk_buffer (s : ConversationRun) (flush : Flush)
    (result : ActivityResult Nat) : (s.afterChunk flush result).self.buffer = s.self.buffer := by
  cases result with
  | failed error => rfl
  | ok chunkCount =>
    unfold afterChunk
    dsimp only
    split
    · rw [afterFlush_self]
    · rfl

@[simp] theorem afterStore_buffer (s : ConversationRun) (flush : Flush)
    (input : StoreDocumentInput) (pg wv : Option StoreDocumentOutput) (target : StoreTarget)
    (result : ActivityResult StoreDocumentOutput) :
    (s.afterStore flush input pg wv target result).self.buffer = s.self.buffer := by
  cases result with
  | failed error => rfl
  | ok output =>
    unfold afterStore
    dsimp only
    split <;> rfl

@[simp] theorem afterStats_self (s : ConversationRun) (flush : Flush)
    (result : ActivityResult Unit) : (s.afterStats flush result).self = s.self := by
  cases result <;> rfl

@[simp] theorem addTurn_buffer (w : ConversationMemoryWorkflow) (now : Timestamp)
    (turn : ConversationTurnSignal) :
    (w.addTurn now turn).buffer =
      w.buffer ++ if turn.turnId ∈ w.seenTurnIds then [] else [turn.buffered] := by
  unfold ConversationMemoryWorkflow.addTurn
  split
  · rw [List.append_nil]
  · rfl

/-! ## Where the run is suspended -/

/-- The turns of the flush that is under way at the `await`. -/
def flushing : Await → Option (List BufferedTurn)
  | .redactTurns turns => some turns
  | .chunkConversation flush => some flush.turns
  | .store flush _ _ _ => some flush.turns
  | .updateWorkspaceStats flush => some flush.turns
  | .recordDeadLetter turns _ => some turns
  | .cleanupStaging turns => some turns
  | _ => none

@[simp] theorem flushing_loop (s : ConversationRun) : flushing s.loop.await = none := by
  unfold loop
  dsimp only
  split
  · split <;> rfl
  · rfl

@[simp] theorem flushing_begin (s : ConversationRun) : flushing s.begin.await = none := by
  unfold begin
  dsimp only
  split
  · rfl
  · exact flushing_loop _

@[simp] theorem flushing_afterIdle (s : ConversationRun) : flushing s.afterIdle.await = none := by
  unfold afterIdle
  split
  · rfl
  · exact flushing_loop s

@[simp] theorem flushing_afterFlush (s : ConversationRun) (turns : List BufferedTurn) :
    flushing (s.afterFlush turns).await = none := by
  unfold afterFlush
  dsimp only
  split
  · rfl
  · split
    · rfl
    · exact flushing_loop _

/-- A flush that begins takes the buffer, and nothing else of the run changes. -/
theorem flush_await (s : ConversationRun) :
    flushing s.flush.await = none ∨ s.flush.await = .redactTurns s.self.buffer := by
  unfold flush
  split
  · exact Or.inl (flushing_afterFlush _ _)
  · exact Or.inr rfl

/-- The code after `redact_turns` does not begin another flush. -/
theorem afterRedact_await (s : ConversationRun) (turns : List BufferedTurn)
    (result : ActivityResult RedactTurnsOutput) (turns' : List BufferedTurn) :
    (s.afterRedact turns result).await ≠ .redactTurns turns' := by
  intro h
  cases result with
  | failed error => exact nomatch h
  | ok output =>
    simp only [afterRedact] at h
    split at h
    · -- a flush that `redact_turns` leaves empty ends, and its end begins no other
      have hf := flushing_afterFlush s turns
      rw [h] at hf
      exact nomatch hf
    · exact nomatch h

/-- The code after `chunk_conversation` goes on to the stores, ends the flush or
    dead-letters it. -/
theorem afterChunk_await (s : ConversationRun) (flush : Flush) (result : ActivityResult Nat) :
    (∃ input, (s.afterChunk flush result).await = .store flush input none none) ∨
      flushing (s.afterChunk flush result).await = none ∨
      ∃ job, (s.afterChunk flush result).await = .recordDeadLetter flush.turns job := by
  cases result with
  | failed error => exact Or.inr (Or.inr ⟨_, rfl⟩)
  | ok chunkCount =>
    simp only [afterChunk]
    split
    · exact Or.inr (Or.inl (flushing_afterFlush s flush.turns))
    · exact Or.inl ⟨_, rfl⟩

/-- The code after a store waits for the other one, goes on to the statistics or
    dead-letters the flush. -/
theorem afterStore_await (s : ConversationRun) (flush : Flush) (input : StoreDocumentInput)
    (pg wv : Option StoreDocumentOutput) (target : StoreTarget)
    (result : ActivityResult StoreDocumentOutput) :
    (∃ pg' wv', (s.afterStore flush input pg wv target result).await =
        .store flush input pg' wv') ∨
      (s.afterStore flush input pg wv target result).await = .updateWorkspaceStats flush ∨
      ∃ job, (s.afterStore flush input pg wv target result).await =
        .recordDeadLetter flush.turns job := by
  cases result with
  | failed error => exact Or.inr (Or.inr ⟨_, rfl⟩)
  | ok output =>
    simp only [afterStore]
    split
    · exact Or.inr (Or.inl rfl)
    · exact Or.inl ⟨_, _, rfl⟩

/-- The code after `update_workspace_stats` cleans up or dead-letters the flush. -/
theorem afterStats_await (s : ConversationRun) (flush : Flush) (result : ActivityResult Unit) :
    (s.afterStats flush result).await = .cleanupStaging flush.turns ∨
      ∃ job, (s.afterStats flush result).await = .recordDeadLetter flush.turns job := by
  cases result with
  | failed error => exact Or.inr ⟨_, rfl⟩
  | ok _ => exact Or.inl rfl

/-! ## The identity of the run -/

/-- The two runs are for the same run id and document. -/
def SameRun (s s' : ConversationRun) : Prop :=
  s'.workflowRunId = s.workflowRunId ∧ s'.self.workspaceId = s.self.workspaceId ∧
    s'.self.documentId = s.self.documentId

theorem sameRun_addTurn (s : ConversationRun) (turn : ConversationTurnSignal) :
    s.SameRun { s with self := s.self.addTurn s.now turn } := by
  unfold SameRun ConversationMemoryWorkflow.addTurn
  dsimp only
  split <;> exact ⟨rfl, rfl, rfl⟩

@[simp] theorem loop_workflowRunId (s : ConversationRun) :
    s.loop.workflowRunId = s.workflowRunId := by
  unfold loop
  dsimp only
  split
  · split <;> rfl
  · rfl

@[simp] theorem begin_workflowRunId (s : ConversationRun) :
    s.begin.workflowRunId = s.workflowRunId := by
  unfold begin
  dsimp only
  split
  · rfl
  · rw [loop_workflowRunId]

@[simp] theorem afterFlush_workflowRunId (s : ConversationRun) (turns : List BufferedTurn) :
    (s.afterFlush turns).workflowRunId = s.workflowRunId := by
  unfold afterFlush
  dsimp only
  split
  · rfl
  · split
    · rfl
    · rw [loop_workflowRunId]

@[simp] theorem flush_workflowRunId (s : ConversationRun) :
    s.flush.workflowRunId = s.workflowRunId := by
  unfold flush
  split
  · rw [afterFlush_workflowRunId]
  · rfl

/-- An event leaves the run id. -/
theorem workflowRunId_of_step {s s' : ConversationRun} {e : WorkflowEvent}
    (h : s.step e = some s') : s'.workflowRunId = s.workflowRunId := by
  cases transition_of_step h with
  | start => exact begin_workflowRunId s
  | idleMet =>
    unfold afterIdle
    split
    · rfl
    · exact loop_workflowRunId s
  | debounceMet => exact flush_workflowRunId s
  | debounceTimeout => exact flush_workflowRunId s
  | tenantReady tenantId => exact loop_workflowRunId _
  | redacted turns result =>
    cases result with
    | failed error => rfl
    | ok output =>
      unfold afterRedact
      dsimp only
      split
      · exact afterFlush_workflowRunId s turns
      · rfl
  | chunked flush result =>
    cases result with
    | failed error => rfl
    | ok chunkCount =>
      unfold afterChunk
      dsimp only
      split
      · exact afterFlush_workflowRunId s flush.turns
      · rfl
  | stored flush input pg wv target result =>
    cases result with
    | failed error => rfl
    | ok output =>
      unfold afterStore
      dsimp only
      split <;> rfl
  | statsUpdated flush result => cases result <;> rfl
  | deadLettered turns => exact afterFlush_workflowRunId s turns
  | cleaned turns => exact afterFlush_workflowRunId s turns
  | _ => rfl

end ConversationRun

end Inherent
