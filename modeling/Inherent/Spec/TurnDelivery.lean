import Inherent.ForStd.Run
import Inherent.Spec.ConversationWorkflow

/-!
# Delivery of accepted turns

Every turn that `add_turn` accepts goes into the buffer, and every flush takes the
whole buffer, so the accepted turns are always the flushed batches followed by the
buffer (`accepted_eq_of_run`).  Whether the run delivers all of them is whether the
buffer is empty when it ends.

The run takes the buffer no more once it is `Leaving` its loop: while it finalizes, and
already during a flush after which it will finalize or continue as new.  A turn accepted
then stays in the buffer, and nothing else does.
-/

namespace Inherent

open EventRun

namespace ConversationRun

/-! ## Accepted turns and flushed batches -/

/-- The turn that the event makes `add_turn` accept. -/
def accepted (s : ConversationRun) : WorkflowEvent → List BufferedTurn
  | .addTurn turn => if turn.turnId ∈ s.self.seenTurnIds then [] else [turn.buffered]
  | _ => []

/-- The batch that the event makes `_flush` take. -/
def batches (s : ConversationRun) (e : WorkflowEvent) : List (List BufferedTurn) :=
  match e, s.await with
  | .conditionMet, .debounce _ => [s.self.buffer]
  | .timeout, .debounce _ => [s.self.buffer]
  | _, _ => []

/-- One event puts an accepted turn into the buffer or the buffer into a batch. -/
private theorem buffer_step {s s' : ConversationRun} {e : WorkflowEvent}
    (h : s.step e = some s') :
    s.self.buffer ++ accepted s e = (batches s e).flatten ++ s'.self.buffer := by
  cases transition_of_step h with
  | addTurn turn hne => simp [accepted, batches]
  | close hne => simp [accepted, batches, ConversationMemoryWorkflow.close]
  | tick now hle => simp [accepted, batches]
  | start hs => simp [accepted, batches]
  | idleMet deadline hs hc => simp [accepted, batches, hs]
  | debounceMet deadline hs hc => simp [accepted, batches, hs]
  | idleTimeout deadline hs hc hd => simp [accepted, batches, hs]
  | debounceTimeout deadline hs hc hd => simp [accepted, batches, hs]
  | tenantReady tenantId hs => simp [accepted, batches]
  | tenantFailed error hs => simp [accepted, batches]
  | redacted turns result hs => simp [accepted, batches]
  | chunked flush result hs => simp [accepted, batches]
  | stored flush input pg wv target result hs hw => simp [accepted, batches]
  | statsUpdated flush result hs => simp [accepted, batches]
  | deadLettered turns job result hs => simp [accepted, batches]
  | cleaned turns result hs => simp [accepted, batches]
  | published result hs => simp [accepted, batches]

/-- In every run the accepted turns are the flushed batches and then the buffer. -/
theorem accepted_eq_of_run {s s' : ConversationRun} {es : List WorkflowEvent}
    (hrun : exec step s es = some s') :
    s.self.buffer ++ collect step accepted s es =
      (collect step batches s es).flatten ++ s'.self.buffer := by
  -- by induction on the events: `buffer_step` moves the turns of the first one over
  induction es generalizing s with
  | nil =>
    simp only [exec_nil, Option.some.injEq] at hrun
    simp [collect, hrun]
  | cons e es ih =>
    obtain ⟨t, ht, hrest⟩ := exec_cons_eq_some.mp hrun
    calc s.self.buffer ++ collect step accepted s (e :: es)
        = s.self.buffer ++ accepted s e ++ collect step accepted t es := by
          rw [collect_cons ht, List.append_assoc]
      _ = (batches s e).flatten ++ (t.self.buffer ++ collect step accepted t es) := by
          rw [buffer_step ht, List.append_assoc]
      _ = (batches s e).flatten ++
            ((collect step batches t es).flatten ++ s'.self.buffer) := by
          rw [ih hrest]
      _ = (collect step batches s (e :: es)).flatten ++ s'.self.buffer := by
          rw [collect_cons ht, List.flatten_append, List.append_assoc]

/-! ## Leaving the loop -/

/-- After the flush of `turns` that is under way the run finalizes or continues as new. -/
def LastFlush (s : ConversationRun) (turns : List BufferedTurn) : Prop :=
  s.self.closed = true ∨ s.input.continueAsNewTurns ≤ s.turnsSinceContinue + turns.length

instance (s : ConversationRun) (turns : List BufferedTurn) : Decidable (s.LastFlush turns) :=
  inferInstanceAs (Decidable (_ ∨ _))

/-- The run is past its loop at the `await`. -/
def pastLoop : Await → Bool
  | .publishCompletion => true
  | .ended _ => true
  | _ => false

/-- The run takes the buffer no more: it is past its loop, or the flush under way is its
    last. -/
def Leaving (s : ConversationRun) : Prop :=
  pastLoop s.await = true ∨ ∃ turns ∈ flushing s.await, s.LastFlush turns

instance (s : ConversationRun) : Decidable s.Leaving :=
  inferInstanceAs (Decidable (_ ∨ _))

/-- What keeps the event from stranding a turn: no new turn is accepted while the run is
    leaving, `close` finds an empty buffer if a flush is under way, and so does a failure of
    `ensure_tenant_ready`. -/
def InTime (s : ConversationRun) : WorkflowEvent → Prop
  | .addTurn turn => turn.turnId ∈ s.self.seenTurnIds ∨ ¬ s.Leaving
  | .close => flushing s.await = none ∨ s.self.buffer = []
  | .ensureTenantReady (.failed _) => s.self.buffer = []
  | _ => True

instance (s : ConversationRun) (e : WorkflowEvent) : Decidable (s.InTime e) := by
  unfold InTime
  split <;> infer_instance

/-- Turns are in the buffer of a run that takes it no more. -/
def Stranded (s : ConversationRun) : Prop := s.Leaving ∧ s.self.buffer ≠ []

private theorem leaving_iff_lastFlush {s : ConversationRun} {turns : List BufferedTurn}
    (h : flushing s.await = some turns) : s.Leaving ↔ s.LastFlush turns := by
  have hloop : pastLoop s.await = false := by
    revert h
    cases s.await <;> simp [flushing, pastLoop]
  simp [Leaving, hloop, h]

private theorem not_stranded_of_buffer {s : ConversationRun} (h : s.self.buffer = []) :
    ¬ s.Stranded := fun hs => hs.2 h

/-- Outside a flush and the end of the run nothing is stranded. -/
private theorem not_stranded_of_await {s : ConversationRun} {await : Await}
    (hs : s.await = await) (hloop : pastLoop await = false) (hflush : flushing await = none) :
    ¬ s.Stranded := by
  subst hs
  intro h
  simp [Stranded, Leaving, hloop, hflush] at h

/-- The top of the loop strands nothing: it goes to `_finalize` only with an empty
    buffer. -/
private theorem not_stranded_loop (s : ConversationRun) : ¬ s.loop.Stranded := by
  by_cases h : s.self.buffer = []
  · exact not_stranded_of_buffer (by rw [loop_self, h])
  · apply not_stranded_of_await rfl
    · simp [loop, h, pastLoop]
    · exact flushing_loop s

/-- After its last flush the run leaves with whatever is in the buffer. -/
private theorem stranded_afterFlush {s : ConversationRun} {turns : List BufferedTurn} :
    (s.afterFlush turns).Stranded ↔ s.LastFlush turns ∧ s.self.buffer ≠ [] := by
  by_cases hclosed : s.self.closed = true
  · simp [afterFlush, hclosed, finalize, Stranded, Leaving, LastFlush, pastLoop]
  · by_cases hturns : s.input.continueAsNewTurns ≤ s.turnsSinceContinue + turns.length
    · simp [afterFlush, hclosed, hturns, Stranded, Leaving, LastFlush, pastLoop]
    · -- neither closed nor due to continue as new: the loop goes on and takes the buffer again
      have hloop : s.afterFlush turns =
          { s with turnsSinceContinue := s.turnsSinceContinue + turns.length }.loop := by
        simp only [afterFlush, if_neg hclosed, if_neg hturns]
      simp [hloop, not_stranded_loop, LastFlush, hclosed, hturns]

/-! ### Within a flush -/

/-- Going on with the same flush strands what was stranded before. -/
private theorem stranded_of_flushing {s s' : ConversationRun} {turns : List BufferedTurn}
    (hs : flushing s.await = some turns) (hs' : flushing s'.await = some turns)
    (hclosed : s'.self.closed = s.self.closed) (hbuffer : s'.self.buffer = s.self.buffer)
    (hinput : s'.input = s.input) (hcount : s'.turnsSinceContinue = s.turnsSinceContinue) :
    s'.Stranded ↔ s.Stranded := by
  unfold Stranded
  rw [leaving_iff_lastFlush hs, leaving_iff_lastFlush hs', LastFlush, LastFlush, hclosed,
    hbuffer, hinput, hcount]

/-- The end of a flush strands what was stranded before. -/
private theorem stranded_afterFlush_iff {s : ConversationRun} {turns : List BufferedTurn}
    (hs : flushing s.await = some turns) : (s.afterFlush turns).Stranded ↔ s.Stranded := by
  rw [stranded_afterFlush, Stranded, leaving_iff_lastFlush hs]

private theorem stranded_deadLetterFlush {s : ConversationRun} {turns : List BufferedTurn}
    {error stage : String} {redacted : Option (List RedactedTurn)}
    (hs : flushing s.await = some turns) :
    (s.deadLetterFlush turns error stage redacted).Stranded ↔ s.Stranded :=
  stranded_of_flushing hs rfl rfl rfl rfl rfl

private theorem stranded_afterRedact {s : ConversationRun} {turns : List BufferedTurn}
    {result : ActivityResult RedactTurnsOutput} (hs : flushing s.await = some turns) :
    (s.afterRedact turns result).Stranded ↔ s.Stranded := by
  cases result with
  | failed error => exact stranded_deadLetterFlush hs
  | ok output =>
    simp only [afterRedact]
    split
    · exact stranded_afterFlush_iff hs
    · exact stranded_of_flushing hs rfl rfl rfl rfl rfl

private theorem stranded_afterChunk {s : ConversationRun} {flush : Flush}
    {result : ActivityResult Nat} (hs : flushing s.await = some flush.turns) :
    (s.afterChunk flush result).Stranded ↔ s.Stranded := by
  cases result with
  | failed error => exact stranded_deadLetterFlush hs
  | ok chunkCount =>
    simp only [afterChunk]
    split
    · exact stranded_afterFlush_iff hs
    · exact stranded_of_flushing hs rfl rfl rfl rfl rfl

private theorem stranded_afterStore {s : ConversationRun} {flush : Flush}
    {input : StoreDocumentInput} {pg wv : Option StoreDocumentOutput} {target : StoreTarget}
    {result : ActivityResult StoreDocumentOutput} (hs : flushing s.await = some flush.turns) :
    (s.afterStore flush input pg wv target result).Stranded ↔ s.Stranded := by
  cases result with
  | failed error => exact stranded_deadLetterFlush hs
  | ok output =>
    simp only [afterStore]
    split
    · exact stranded_of_flushing hs rfl rfl rfl rfl rfl
    · exact stranded_of_flushing hs rfl rfl rfl rfl rfl

private theorem stranded_afterStats {s : ConversationRun} {flush : Flush}
    {result : ActivityResult Unit} (hs : flushing s.await = some flush.turns) :
    (s.afterStats flush result).Stranded ↔ s.Stranded := by
  cases result with
  | failed error => exact stranded_deadLetterFlush hs
  | ok output => exact stranded_of_flushing hs rfl rfl rfl rfl rfl

/-! ### Signal handlers -/

private theorem stranded_addTurn {s : ConversationRun} (turn : ConversationTurnSignal) :
    { s with self := s.self.addTurn s.now turn }.Stranded ↔
      s.Stranded ∨ ¬ s.InTime (.addTurn turn) := by
  have hclosed : (s.self.addTurn s.now turn).closed = s.self.closed := by
    unfold ConversationMemoryWorkflow.addTurn
    split <;> rfl
  have hleaving : { s with self := s.self.addTurn s.now turn }.Leaving ↔ s.Leaving := by
    simp only [Leaving, LastFlush, hclosed]
  simp only [Stranded, hleaving, addTurn_buffer, InTime]
  by_cases hseen : turn.turnId ∈ s.self.seenTurnIds
  · simp [hseen]
  · by_cases hl : s.Leaving <;> simp [hseen, hl]

/-- `close` makes the flush under way the last one. -/
private theorem leaving_close {s : ConversationRun} :
    { s with self := s.self.close }.Leaving ↔ s.Leaving ∨ flushing s.await ≠ none := by
  cases h : flushing s.await with
  | none => simp [Leaving, h]
  | some turns => simp [Leaving, h, LastFlush, ConversationMemoryWorkflow.close]

private theorem stranded_close {s : ConversationRun} :
    { s with self := s.self.close }.Stranded ↔ s.Stranded ∨ ¬ s.InTime .close := by
  have hbuffer : s.self.close.buffer = s.self.buffer := rfl
  simp only [Stranded, leaving_close, hbuffer, InTime]
  -- a flush under way becomes the last one, so the turns buffered by then are stranded
  by_cases hempty : s.self.buffer = [] <;> simp [hempty]

/-! ### One event -/

/-- An event strands a turn exactly when it is not in time. -/
private theorem stranded_step (s : ConversationRun) (e : WorkflowEvent) (s' : ConversationRun)
    (h : s.step e = some s') : s'.Stranded ↔ s.Stranded ∨ ¬ s.InTime e := by
  cases transition_of_step h with
  | addTurn turn hne => exact stranded_addTurn turn
  | close hne => exact stranded_close
  | tick now hle => simp [Stranded, Leaving, LastFlush, InTime]
  | start hs =>
    have hbefore : ¬ s.Stranded := not_stranded_of_await hs rfl rfl
    have hafter : ¬ s.begin.Stranded := by
      unfold begin
      dsimp only
      split
      · exact not_stranded_of_await rfl rfl rfl
      · exact not_stranded_loop _
    simp [hbefore, hafter, InTime]
  | idleMet deadline hs hc =>
    have hbefore : ¬ s.Stranded := not_stranded_of_await hs rfl rfl
    have hafter : ¬ s.afterIdle.Stranded := by
      unfold afterIdle
      split
      · rename_i hend
        exact not_stranded_of_buffer hend.2
      · exact not_stranded_loop s
    simp [hbefore, hafter, InTime]
  | debounceMet deadline hs hc =>
    have hbefore : ¬ s.Stranded := not_stranded_of_await hs rfl rfl
    -- a flush takes the whole buffer
    have hafter : ¬ s.flush.Stranded := not_stranded_of_buffer (flush_buffer s)
    simp [hbefore, hafter, InTime]
  | idleTimeout deadline hs hc hd =>
    -- the timer only wins over the condition when nothing is buffered
    have hempty : s.self.buffer = [] := by
      simp only [condition, hs, Bool.or_eq_false_iff] at hc
      simpa using hc.1
    simp [Stranded, hempty, InTime]
  | debounceTimeout deadline hs hc hd =>
    have hbefore : ¬ s.Stranded := not_stranded_of_await hs rfl rfl
    have hafter : ¬ s.flush.Stranded := not_stranded_of_buffer (flush_buffer s)
    simp [hbefore, hafter, InTime]
  | tenantReady tenantId hs =>
    have hbefore : ¬ s.Stranded := not_stranded_of_await hs rfl rfl
    simp [hbefore, not_stranded_loop, InTime]
  | tenantFailed error hs => simp [Stranded, Leaving, flushing, pastLoop, hs, InTime]
  | redacted turns result hs =>
    rw [stranded_afterRedact (by rw [hs]; rfl)]
    simp [InTime]
  | chunked flush result hs =>
    rw [stranded_afterChunk (by rw [hs]; rfl)]
    simp [InTime]
  | stored flush input pg wv target result hs hw =>
    rw [stranded_afterStore (by rw [hs]; rfl)]
    simp [InTime]
  | statsUpdated flush result hs =>
    rw [stranded_afterStats (by rw [hs]; rfl)]
    simp [InTime]
  | deadLettered turns job result hs =>
    rw [stranded_afterFlush_iff (by rw [hs]; rfl)]
    simp [InTime]
  | cleaned turns result hs =>
    rw [stranded_afterFlush_iff (by rw [hs]; rfl)]
    simp [InTime]
  | published result hs => simp [Stranded, Leaving, pastLoop, hs, InTime]

/-! ## Every run -/

/-- The run has delivered what it accepted: the buffer is empty, and every accepted turn is
    in one of its batches, once and in order. -/
def Delivered (s : ConversationRun) (es : List WorkflowEvent) (s' : ConversationRun) : Prop :=
  s'.self.buffer = [] ∧ (collect step batches s es).flatten = collect step accepted s es

instance (s : ConversationRun) (es : List WorkflowEvent) (s' : ConversationRun) :
    Decidable (Delivered s es s') :=
  inferInstanceAs (Decidable (_ ∧ _))

/-- A run that has ended delivered every turn it accepted exactly when each of its events
    was in time. -/
theorem delivered_iff_inTime (input : ConversationMemoryInput) (runId : RunId)
    (now : Timestamp) (es : List WorkflowEvent) (s : ConversationRun) (outcome : RunOutcome)
    (hrun : exec step (new input runId now) es = some s) (hend : s.await = .ended outcome) :
    Delivered (new input runId now) es s ↔ AllSteps step InTime (new input runId now) es := by
  have hturns := accepted_eq_of_run hrun
  have hstart : ¬ (new input runId now).Stranded := not_stranded_of_buffer rfl
  have hstranded : s.Stranded ↔ s.self.buffer ≠ [] := by
    simp [Stranded, Leaving, pastLoop, hend]
  have hbuffer : s.self.buffer = [] ↔ AllSteps step InTime (new input runId now) es := by
    -- stranded turns stay stranded, so the run ends so exactly when some event was late
    have hlatch := exec_latched_iff stranded_step hrun
    rw [hstranded] at hlatch
    simpa [hstart] using not_congr hlatch
  rw [← hbuffer]
  constructor
  · intro h
    exact h.1
  · intro hempty
    refine ⟨hempty, ?_⟩
    rw [hempty, List.append_nil] at hturns
    exact hturns.symm

/-- A conversation that continues as new after one turn. -/
def sampleInput : ConversationMemoryInput where
  workspaceId := "ws"
  externalId := "chat"
  userId := "user"
  tenantId := some 1
  flushCharThreshold := 1
  continueAsNewTurns := 1

/-- A turn with the id and the text. -/
def sampleTurn (turnId text : String) : ConversationTurnSignal where
  turnId := turnId
  role := "user"
  text := text
  ts := "t"
  userId := "user"

/-- The results of a flush of one turn that goes well, from `redact_turns` on. -/
def flushResults (turnId text : String) : List WorkflowEvent :=
  [.redactTurns (.ok { redactedTurns := [{ turnId := turnId, text := text }] }),
    .chunkConversation (.ok 1),
    .store .postgresql (.ok { success := true, chunksStored := 1 }),
    .store .weaviate (.ok { success := true, chunksStored := 1 }),
    .updateWorkspaceStats (.ok ()), .cleanupStaging (.ok ())]

/-- One turn, flushed; the run then continues as new. -/
def sampleDelivery : List WorkflowEvent :=
  [.start, .addTurn (sampleTurn "t1" "hi"), .conditionMet, .conditionMet] ++
    flushResults "t1" "hi"

theorem delivered_iff_inTime_sampleDelivery :
    ∃ s, exec step (new sampleInput "run" 0) sampleDelivery = some s ∧
      (Delivered (new sampleInput "run" 0) sampleDelivery s ↔
        AllSteps step InTime (new sampleInput "run" 0) sampleDelivery) :=
  ⟨_, rfl, delivered_iff_inTime sampleInput "run" 0 sampleDelivery _ _ rfl rfl⟩

/-- The same with a second turn accepted while the first one is redacted. -/
def turnDuringFlush : List WorkflowEvent :=
  [.start, .addTurn (sampleTurn "t1" "hi"), .conditionMet, .conditionMet,
    .addTurn (sampleTurn "t2" "there")] ++ flushResults "t1" "hi"

/-- The second turn is left in the buffer when the run continues as new, and the input of
    the next run names its id as seen, so that a resend is dropped too. -/
theorem not_delivered_turnDuringFlush :
    ¬ ∀ (input : ConversationMemoryInput) (runId : RunId) (now : Timestamp)
      (es : List WorkflowEvent) (s : ConversationRun) (outcome : RunOutcome),
      exec step (new input runId now) es = some s → s.await = .ended outcome →
      Delivered (new input runId now) es s := by
  intro h
  have hrun := h sampleInput "run" 0 turnDuringFlush _ _ rfl rfl
  revert hrun
  decide

example : (exec step (new sampleInput "run" 0) turnDuringFlush).map
    (fun s => (s.self.buffer.map BufferedTurn.turnId, s.self.seenTurnIds)) =
    some (["t2"], ["t1", "t2"]) := by decide

end ConversationRun

end Inherent
