import Inherent.ForStd.Run
import Inherent.Native.ConversationSystem
import Inherent.Spec.ConversationWorkflow
import Inherent.Spec.Database

/-!
# What one event does in a conversation

`Transition` lists the events of a `ConversationSystem` with the state each leaves, and
`transition_of_step` is the inversion of `step`.  A batch is determined by its flush
record: redaction and chunking are functions of the turns, up to the index that
`chunk_conversation` read (`IsBatchOf`).
-/

namespace Inherent

/-! ## The batch of a flush -/

/-- The input of `redact_turns` for the flush. -/
def FlushRecord.redactInput (r : FlushRecord) : RedactTurnsInput where
  turns := r.turns.map fun t => { turnId := t.turnId, text := t.text, role := some t.role }
  workflowRunId := some r.workflowRunId
  workspaceId := some r.workspaceId
  documentId := some r.documentId

/-- The redacted turns of the flush. -/
def FlushRecord.redacted (c : ConversationConfig) (r : FlushRecord) : List RedactedTurn :=
  (redactTurns c.redactText r.redactInput).1.redactedTurns

/-- The input of `chunk_conversation` for the flush. -/
def FlushRecord.chunkInput (c : ConversationConfig) (r : FlushRecord) : ChunkConversationInput where
  workflowRunId := r.workflowRunId
  documentId := r.documentId
  workspaceId := some r.workspaceId
  redactedTurns := r.redacted c
  turnMeta := ConversationRun.turnMeta ⟨r.turns, r.redacted c⟩

/-- The chunks are the batch of the flush, numbered on from some start index. -/
def IsBatchOf (c : ConversationConfig) (r : FlushRecord) (chunks : List StagedChunk) : Prop :=
  ∃ start, chunks = chunkConversation c.settings (r.chunkInput c) start

namespace ConversationSystem

/-- What `redact_turns` returns, or the error it fails with. -/
def redactOutcome (c : ConversationConfig) (s : ConversationSystem) (turns : List BufferedTurn)
    (error : Option String) : ActivityResult RedactTurnsOutput :=
  match error with
  | none => .ok (Inherent.redactTurns c.redactText (s.run.redactTurnsInput turns)).1
  | some error => .failed error

/-- `s.Transition c e s'`: the event `e` can happen in `s` and leaves `s'`. -/
inductive Transition (c : ConversationConfig) (s : ConversationSystem) :
    SystemEvent → ConversationSystem → Prop where
  | timer (e : WorkflowEvent) (run : ConversationRun) (he : e = .conditionMet ∨ e = .timeout)
      (h : s.run.Transition e run) : Transition c s (.workflow e) (s.afterTimer run)
  | local (e : WorkflowEvent) (run : ConversationRun) (hlocal : isLocal e = true)
      (hc : e ≠ .conditionMet) (ht : e ≠ .timeout) (h : s.run.Transition e run) :
      Transition c s (.workflow e) { s with run := run }
  | redacted (landed : List Bool) (error : Option String) (turns : List BufferedTurn)
      (hs : s.run.await = .redactTurns turns) :
      Transition c s (.redactTurns landed error)
        ({ s with audits := s.audits ++ landedAudits (Inherent.redactTurns c.redactText
            (s.run.redactTurnsInput turns)).2 landed }.scheduleChunk
          (s.run.afterRedact turns (redactOutcome c s turns error)))
  | countRead (k flushNo : Nat) (input : ChunkConversationInput)
      (ha : s.attempts[k]? = some (.chunk flushNo input none false)) :
      Transition c s (.readChunkCount k) { s with
        attempts :=
          s.attempts.set k (.chunk flushNo input (some (getDocumentChunkCount s.doc)) false) }
  | staged (k flushNo : Nat) (input : ChunkConversationInput) (start : Nat)
      (ha : s.attempts[k]? = some (.chunk flushNo input (some start) false)) :
      Transition c s (.stageChunks k) { s with
        staging := Function.update s.staging input.workflowRunId
          (some ⟨flushNo, Inherent.chunkConversation c.settings input start⟩)
        attempts := s.attempts.set k (.chunk flushNo input (some start) true) }
  | chunkDone (k : Nat) (input : ChunkConversationInput) (start : Nat) (flush : Flush)
      (ha : s.attempts[k]? = some (.chunk s.flushNo input (some start) true))
      (hs : s.run.await = .chunkConversation flush) :
      Transition c s (.chunkDone k) (s.scheduleStores (s.run.afterChunk flush
        (.ok (Inherent.chunkConversation c.settings input start).length)))
  | stagingMissing (k flushNo : Nat) (target : StoreTarget) (input : StoreDocumentInput)
      (ha : s.attempts[k]? = some (.store flushNo target input .started))
      (hrow : s.staging input.workflowRunId = none) : Transition c s (.readStaging k) s
  | stagingRead (k flushNo : Nat) (target : StoreTarget) (input : StoreDocumentInput)
      (row : StagedRow) (ha : s.attempts[k]? = some (.store flushNo target input .started))
      (hrow : s.staging input.workflowRunId = some row) :
      Transition c s (.readStaging k) { s with
        attempts := s.attempts.set k (.store flushNo target input (.read row.chunks)) }
  | fenceChecked (k flushNo : Nat) (input : StoreDocumentInput) (chunks : List StagedChunk)
      (phase : StorePhase)
      (ha : s.attempts[k]? = some (.store flushNo .weaviate input (.read chunks)))
      (hphase : phase.chunks? = some chunks) :
      Transition c s (.checkFence k) { s with
        attempts := s.attempts.set k (.store flushNo .weaviate input phase) }
  | committedPg (k : Nat) (now : Timestamp) (flushNo : Nat) (input : StoreDocumentInput)
      (chunks : List StagedChunk)
      (ha : s.attempts[k]? = some (.store flushNo .postgresql input (.read chunks))) :
      Transition c s (.commit k now) { s with
        doc := (storeInPostgresql input now chunks s.doc).1
        attempts := s.attempts.set k (.store flushNo .postgresql input
          (.finished chunks (storeInPostgresql input now chunks s.doc).2))
        writes := if (storeInPostgresql input now chunks s.doc).2.success then
            s.writes ++ [⟨flushNo, .postgresql, chunks⟩] else s.writes }
  | committedWv (k : Nat) (now : Timestamp) (flushNo : Nat) (input : StoreDocumentInput)
      (chunks : List StagedChunk) (output : StoreDocumentOutput)
      (ha : s.attempts[k]? = some (.store flushNo .weaviate input (.permitted chunks))) :
      Transition c s (.commit k now) { s with
        attempts := s.attempts.set k (.store flushNo .weaviate input (.finished chunks output))
        writes := s.writes ++ [⟨flushNo, .weaviate, chunks⟩] }
  | storeDone (k : Nat) (target : StoreTarget) (input : StoreDocumentInput)
      (chunks : List StagedChunk) (output : StoreDocumentOutput) (flush : Flush)
      (storeInput : StoreDocumentInput) (pg wv : Option StoreDocumentOutput)
      (ha : s.attempts[k]? = some (.store s.flushNo target input (.finished chunks output)))
      (hs : s.run.await = .store flush storeInput pg wv)
      (hw : ConversationRun.awaitsStore pg wv target = true) :
      Transition c s (.storeDone k)
        { s with run := s.run.afterStore flush storeInput pg wv target (.ok output) }
  | retried (k : Nat) (attempt : Attempt) (ha : s.attempts[k]? = some attempt) :
      Transition c s (.retry k) { s with attempts := s.attempts ++ [Attempt.restarted attempt] }
  | deadLettered (turns : List BufferedTurn) (job : DeadLetterJob)
      (hs : s.run.await = .recordDeadLetter turns job) :
      Transition c s .recordDeadLetter { s with
        run := s.run.afterFlush turns, deadLetters := s.deadLetters.insertNew job }
  | cleaned (turns : List BufferedTurn) (hs : s.run.await = .cleanupStaging turns) :
      Transition c s .cleanupStaging { s with
        run := s.run.afterFlush turns
        staging := Function.update s.staging (s.run.afterFlush turns).workflowRunId none }
  | stagingDeleted (workflowRunId : RunId) :
      Transition c s (.deleteStaging workflowRunId)
        { s with staging := Function.update s.staging workflowRunId none }
  | nextRun (input : ConversationMemoryInput) (workflowRunId : RunId) (now : Timestamp)
      (outcome : RunOutcome) (hs : s.run.await = .ended outcome)
      (hf : follows s.run outcome input) (hr : workflowRunId ∉ s.usedRunIds) :
      Transition c s (.nextRun input workflowRunId now) { s with
        run := .new input workflowRunId now, usedRunIds := workflowRunId :: s.usedRunIds }

/-- Every step of the conversation is one of the transitions. -/
theorem transition_of_step {c : ConversationConfig} {s s' : ConversationSystem} {e : SystemEvent}
    (h : s.step c e = some s') : s.Transition c e s' := by
  cases e with
  | workflow e =>
    by_cases hc : e = .conditionMet
    · subst hc
      obtain ⟨run, hrun, rfl⟩ := Option.map_eq_some_iff.mp h
      exact .timer _ run (Or.inl rfl) (ConversationRun.transition_of_step hrun)
    · by_cases ht : e = .timeout
      · subst ht
        obtain ⟨run, hrun, rfl⟩ := Option.map_eq_some_iff.mp h
        exact .timer _ run (Or.inr rfl) (ConversationRun.transition_of_step hrun)
      · -- the other events of the workflow are taken if they are local
        have h' : (if isLocal e then (s.run.step e).map fun run => { s with run := run }
            else none) = some s' := by
          cases e <;> first | exact h | contradiction
        split at h'
        · rename_i hlocal
          obtain ⟨run, hrun, rfl⟩ := Option.map_eq_some_iff.mp h'
          exact .local e run hlocal hc ht (ConversationRun.transition_of_step hrun)
        · exact nomatch h'
  | redactTurns landed error =>
    simp only [step, redactTurns] at h
    split at h
    · rename_i turns hs
      simp only [ConversationRun.step, hs, Option.map_some, Option.some.injEq] at h
      subst h
      exact .redacted landed error turns hs
    · exact nomatch h
  | readChunkCount k =>
    simp only [step] at h
    split at h
    · rename_i flushNo input ha
      obtain rfl := Option.some.inj h
      exact .countRead k flushNo input ha
    · exact nomatch h
  | stageChunks k =>
    simp only [step] at h
    split at h
    · rename_i flushNo input start ha
      obtain rfl := Option.some.inj h
      exact .staged k flushNo input start ha
    · exact nomatch h
  | chunkDone k =>
    simp only [step] at h
    split at h
    · rename_i flushNo input start ha
      split at h
      · rename_i hno
        subst hno
        cases hs : s.run.await with
        | chunkConversation flush =>
          simp only [ConversationRun.step, hs, Option.map_some, Option.some.injEq] at h
          subst h
          exact .chunkDone k input start flush ha hs
        | _ => simp [ConversationRun.step, hs] at h
      · exact nomatch h
    · exact nomatch h
  | readStaging k =>
    simp only [step, readStaging] at h
    split at h
    · rename_i flushNo target input ha
      split at h
      · rename_i hrow
        obtain rfl := Option.some.inj h
        exact .stagingMissing k flushNo target input ha hrow
      · rename_i row hrow
        obtain rfl := Option.some.inj h
        exact .stagingRead k flushNo target input row ha hrow
    · exact nomatch h
  | checkFence k =>
    simp only [step, checkFence] at h
    split at h
    · rename_i flushNo input chunks ha
      obtain rfl := Option.some.inj h
      exact .fenceChecked k flushNo input chunks _ ha (by split <;> rfl)
    · exact nomatch h
  | commit k now =>
    simp only [step, commit] at h
    split at h
    · rename_i flushNo input chunks ha
      obtain rfl := Option.some.inj h
      exact .committedPg k now flushNo input chunks ha
    · rename_i flushNo input chunks ha
      obtain rfl := Option.some.inj h
      exact .committedWv k now flushNo input chunks _ ha
    · exact nomatch h
  | storeDone k =>
    simp only [step] at h
    split at h
    · rename_i flushNo target input chunks output ha
      split at h
      · rename_i hno
        subst hno
        cases hs : s.run.await with
        | store flush storeInput pg wv =>
          by_cases hw : ConversationRun.awaitsStore pg wv target = true
          · simp only [ConversationRun.step, hs, hw, if_true, Option.map_some,
              Option.some.injEq] at h
            subst h
            exact .storeDone k target input chunks output flush storeInput pg wv ha hs hw
          · simp [ConversationRun.step, hs, hw] at h
        | _ => simp [ConversationRun.step, hs] at h
      · exact nomatch h
    · exact nomatch h
  | retry k =>
    simp only [step] at h
    split at h
    · rename_i attempt ha
      obtain rfl := Option.some.inj h
      exact .retried k attempt ha
    · exact nomatch h
  | recordDeadLetter =>
    simp only [step] at h
    split at h
    · rename_i turns job hs
      simp only [ConversationRun.step, hs, Option.map_some, Option.some.injEq] at h
      subst h
      exact .deadLettered turns job hs
    · exact nomatch h
  | cleanupStaging =>
    simp only [step] at h
    cases hs : s.run.await with
    | cleanupStaging turns =>
      simp only [ConversationRun.step, hs, Option.map_some, Option.some.injEq] at h
      subst h
      exact .cleaned turns hs
    | _ => simp [ConversationRun.step, hs] at h
  | deleteStaging workflowRunId =>
    obtain rfl := Option.some.inj h
    exact .stagingDeleted workflowRunId
  | nextRun input workflowRunId now =>
    simp only [step] at h
    split at h
    · rename_i outcome hs
      split at h
      · rename_i hf
        obtain rfl := Option.some.inj h
        exact .nextRun input workflowRunId now outcome hs hf.1 hf.2
      · exact nomatch h
    · exact nomatch h

/-! ## Flush numbers -/

/-- The chunks are a batch of the flush with the number. -/
def BatchAt (c : ConversationConfig) (s : ConversationSystem) (flushNo : Nat)
    (chunks : List StagedChunk) : Prop :=
  ∃ r, s.flushes[flushNo]? = some r ∧ IsBatchOf c r chunks

/-- What is recorded for a flush stays when later flushes begin. -/
theorem getElem?_flushes_append {s : ConversationSystem} {rs : List FlushRecord} {i : Nat}
    {r : FlushRecord} (h : s.flushes[i]? = some r) : (s.flushes ++ rs)[i]? = some r := by
  obtain ⟨hi, rfl⟩ := List.getElem?_eq_some_iff.mp h
  rw [List.getElem?_append_left hi, List.getElem?_eq_getElem hi]

/-- The numbers are right: the flush that is being redacted is the last one recorded, an
    attempt of `chunk_conversation` has the input of its flush, and the chunks of a staged
    row are a batch of the flush that wrote it. -/
structure Labelled (c : ConversationConfig) (s : ConversationSystem) : Prop where
  redacting : ∀ turns, s.run.await = .redactTurns turns →
    s.flushes.getLast? = some (s.run.flushRecord turns)
  chunk_input : ∀ flushNo input start staged, .chunk flushNo input start staged ∈ s.attempts →
    ∃ r, s.flushes[flushNo]? = some r ∧ input = r.chunkInput c
  staging : ∀ runId row, s.staging runId = some row → BatchAt c s row.flushNo row.chunks

theorem BatchAt.append {c : ConversationConfig} {s s' : ConversationSystem} {flushNo : Nat}
    {chunks : List StagedChunk} {rs : List FlushRecord} (h : BatchAt c s flushNo chunks)
    (hs : s'.flushes = s.flushes ++ rs) : BatchAt c s' flushNo chunks := by
  obtain ⟨r, hr, hbatch⟩ := h
  exact ⟨r, hs ▸ getElem?_flushes_append hr, hbatch⟩

/-- The record of a flush depends on the run id and the document alone. -/
theorem flushRecord_of_sameRun {run run' : ConversationRun} (h : run.SameRun run')
    (turns : List BufferedTurn) : run'.flushRecord turns = run.flushRecord turns := by
  obtain ⟨h1, h2, h3⟩ := h
  unfold ConversationRun.flushRecord
  rw [h1, h2, h3]

/-- A run that is not in a flush redacts nothing. -/
private theorem ne_redactTurns {run : ConversationRun} {turns : List BufferedTurn}
    (h : ConversationRun.flushing run.await = none) : run.await ≠ .redactTurns turns := by
  intro hs
  rw [hs] at h
  cases h

/-- A local event of the run does not begin a flush, and keeps the record of the one that
    is being redacted. -/
private theorem flushRecord_of_local {run run' : ConversationRun} {e : WorkflowEvent}
    {turns : List BufferedTurn} (hlocal : isLocal e = true) (hc : e ≠ .conditionMet)
    (ht : e ≠ .timeout) (h : run.Transition e run') (hs : run'.await = .redactTurns turns) :
    run.await = .redactTurns turns ∧ run'.flushRecord turns = run.flushRecord turns := by
  cases h with
  | addTurn turn hne =>
    exact ⟨hs, flushRecord_of_sameRun (run.sameRun_addTurn turn) turns⟩
  | close hne => exact ⟨hs, rfl⟩
  | tick now hle => exact ⟨hs, rfl⟩
  | start _ => exact absurd hs (ne_redactTurns (ConversationRun.flushing_begin run))
  | idleMet deadline _ _ => exact absurd rfl hc
  | debounceMet deadline _ _ => exact absurd rfl hc
  | idleTimeout deadline _ _ _ => exact absurd rfl ht
  | debounceTimeout deadline _ _ _ => exact absurd rfl ht
  | tenantReady tenantId _ => exact absurd hs (ne_redactTurns (ConversationRun.flushing_loop _))
  | tenantFailed error _ => exact nomatch hs
  | redacted turns' result _ => exact nomatch hlocal
  | chunked flush result _ =>
    obtain ⟨input, h⟩ | h | ⟨job, h⟩ := run.afterChunk_await flush result
    · exact nomatch h.symm.trans hs
    · exact absurd hs (ne_redactTurns h)
    · exact nomatch h.symm.trans hs
  | stored flush input pg wv target result _ _ =>
    obtain ⟨pg', wv', h⟩ | h | ⟨job, h⟩ := run.afterStore_await flush input pg wv target result
    · exact nomatch h.symm.trans hs
    · exact nomatch h.symm.trans hs
    · exact nomatch h.symm.trans hs
  | statsUpdated flush result _ =>
    obtain h | ⟨job, h⟩ := run.afterStats_await flush result
    · exact nomatch h.symm.trans hs
    · exact nomatch h.symm.trans hs
  | deadLettered turns' job result _ => exact nomatch hlocal
  | cleaned turns' result _ =>
    exact absurd hs (ne_redactTurns (ConversationRun.flushing_afterFlush run turns'))
  | published result _ => exact nomatch hs

private theorem redacting_step {c : ConversationConfig} {s s' : ConversationSystem}
    {e : SystemEvent} (h : Labelled c s) (hstep : s.Transition c e s') (turns : List BufferedTurn)
    (hs : s'.run.await = .redactTurns turns) :
    s'.flushes.getLast? = some (s'.run.flushRecord turns) := by
  cases hstep with
  | timer e run he hrun =>
    have hbegun : begunFlushes run = [run.flushRecord turns] := by
      have hs' : run.await = .redactTurns turns := hs
      simp only [begunFlushes, hs']
    show (s.flushes ++ begunFlushes run).getLast? = _
    rw [hbegun, List.getLast?_concat]
    rfl
  | «local» e run hlocal hc ht hrun =>
    obtain ⟨hs', hrecord⟩ := flushRecord_of_local hlocal hc ht hrun hs
    exact (h.redacting turns hs').trans (congrArg some hrecord.symm)
  | redacted landed error turns' hs' =>
    exact absurd hs (ConversationRun.afterRedact_await s.run turns' _ turns)
  | chunkDone k input start flush ha hs' =>
    obtain ⟨input', hc⟩ | hc | ⟨job, hc⟩ := s.run.afterChunk_await flush
      (.ok (Inherent.chunkConversation c.settings input start).length)
    · exact nomatch hc.symm.trans hs
    · exact absurd hs (ne_redactTurns hc)
    · exact nomatch hc.symm.trans hs
  | storeDone k target input chunks output flush storeInput pg wv ha hs' hw =>
    obtain ⟨pg', wv', hc⟩ | hc | ⟨job, hc⟩ :=
      s.run.afterStore_await flush storeInput pg wv target (.ok output)
    · exact nomatch hc.symm.trans hs
    · exact nomatch hc.symm.trans hs
    · exact nomatch hc.symm.trans hs
  | deadLettered turns' job hs' =>
    exact absurd hs (ne_redactTurns (ConversationRun.flushing_afterFlush s.run turns'))
  | cleaned turns' hs' =>
    exact absurd hs (ne_redactTurns (ConversationRun.flushing_afterFlush s.run turns'))
  | nextRun input runId now outcome hs' hf hr => exact nomatch hs
  | _ => exact h.redacting turns hs

/-- The attempt of `chunk_conversation` that `redact_turns` schedules has the input of the
    flush under way. -/
private theorem chunkInput_scheduled {c : ConversationConfig} {s : ConversationSystem}
    {turns : List BufferedTurn} {error : Option String} {audits : List RedactionAudit}
    {attempt : Attempt} (h : Labelled c s) (hs : s.run.await = .redactTurns turns)
    (ha : attempt ∈ { s with audits := audits }.chunkAttempts
      (s.run.afterRedact turns (redactOutcome c s turns error))) :
    ∃ r, s.flushes[s.flushNo]? = some r ∧
      attempt = .chunk s.flushNo (r.chunkInput c) none false := by
  have hlast : s.flushes[s.flushNo]? = some (s.run.flushRecord turns) := by
    rw [flushNo, ← List.getLast?_eq_getElem?]
    exact h.redacting turns hs
  refine ⟨_, hlast, ?_⟩
  unfold chunkAttempts at ha
  split at ha
  · rename_i flush hflush
    rw [List.mem_singleton.mp ha]
    -- `afterRedact` only goes on to `chunk_conversation` with the output of `redact_turns`
    cases error with
    | some error => cases hflush
    | none =>
      simp only [redactOutcome, ConversationRun.afterRedact] at hflush ⊢
      split at hflush
      · have hnone := ConversationRun.flushing_afterFlush s.run turns
        rw [hflush] at hnone
        cases hnone
      · rename_i hne
        obtain rfl := Await.chunkConversation.inj hflush
        rw [if_neg hne]
        rfl
  · exact absurd ha List.not_mem_nil

private theorem chunk_input_step {c : ConversationConfig} {s s' : ConversationSystem}
    {e : SystemEvent} (h : Labelled c s) (hstep : s.Transition c e s') (flushNo : Nat)
    (input : ChunkConversationInput) (start : Option Nat) (staged : Bool)
    (hmem : .chunk flushNo input start staged ∈ s'.attempts) :
    ∃ r, s'.flushes[flushNo]? = some r ∧ input = r.chunkInput c := by
  have hold : ∀ start staged, .chunk flushNo input start staged ∈ s.attempts →
      ∃ r, s.flushes[flushNo]? = some r ∧ input = r.chunkInput c := h.chunk_input flushNo input
  -- an attempt that goes on keeps its number and input
  have hset : ∀ k no inp st b st' b', s.attempts[k]? = some (.chunk no inp st b) →
      .chunk flushNo input start staged ∈ s.attempts.set k (.chunk no inp st' b') →
      ∃ r, s.flushes[flushNo]? = some r ∧ input = r.chunkInput c := by
    intro k no inp st b st' b' ha hmem
    cases List.mem_or_eq_of_mem_set hmem with
    | inl hmem => exact hold start staged hmem
    | inr heq =>
      obtain ⟨rfl, rfl, -, -⟩ := Attempt.chunk.inj heq
      exact hold st b (List.mem_of_getElem? ha)
  cases hstep with
  | timer e run he hrun =>
    obtain ⟨r, hr, hin⟩ := hold start staged hmem
    exact ⟨r, getElem?_flushes_append hr, hin⟩
  | redacted landed error turns hs =>
    cases List.mem_append.mp hmem with
    | inl hmem => exact hold start staged hmem
    | inr hmem =>
      obtain ⟨r, hr, ha⟩ := chunkInput_scheduled h hs hmem
      obtain ⟨rfl, rfl, -, -⟩ := Attempt.chunk.inj ha
      exact ⟨r, hr, rfl⟩
  | countRead k no inp ha => exact hset k no inp none false _ false ha hmem
  | staged k no inp st ha => exact hset k no inp (some st) false _ true ha hmem
  | chunkDone k inp st flush ha hs =>
    cases List.mem_append.mp hmem with
    | inl hmem => exact hold start staged hmem
    | inr hmem =>
      unfold storeAttempts at hmem
      split at hmem <;> simp at hmem
  | stagingRead k no target inp row ha hrow =>
    exact hold start staged ((List.mem_or_eq_of_mem_set hmem).resolve_right nofun)
  | fenceChecked k no inp chunks phase ha hphase =>
    exact hold start staged ((List.mem_or_eq_of_mem_set hmem).resolve_right nofun)
  | committedPg k now no inp chunks ha =>
    exact hold start staged ((List.mem_or_eq_of_mem_set hmem).resolve_right nofun)
  | committedWv k now no inp chunks output ha =>
    exact hold start staged ((List.mem_or_eq_of_mem_set hmem).resolve_right nofun)
  | retried k attempt ha =>
    cases List.mem_append.mp hmem with
    | inl hmem => exact hold start staged hmem
    | inr hmem =>
      have heq := List.mem_singleton.mp hmem
      cases attempt with
      | chunk no inp st b =>
        obtain ⟨rfl, rfl, -, -⟩ := Attempt.chunk.inj heq
        exact hold st b (List.mem_of_getElem? ha)
      | store no target inp phase => exact nomatch heq
  | _ => exact hold start staged hmem

/-- A staged row that an update leaves was there before or is the new one. -/
private theorem of_update_eq_some {staging : RunId → Option StagedRow} {runId runId' : RunId}
    {new : Option StagedRow} {row : StagedRow}
    (h : Function.update staging runId new runId' = some row) :
    staging runId' = some row ∨ new = some row := by
  by_cases heq : runId' = runId
  · subst heq
    rw [Function.update_self] at h
    exact Or.inr h
  · rw [Function.update_of_ne heq] at h
    exact Or.inl h

private theorem staging_step {c : ConversationConfig} {s s' : ConversationSystem}
    {e : SystemEvent} (h : Labelled c s) (hstep : s.Transition c e s') (runId : RunId)
    (row : StagedRow) (hrow : s'.staging runId = some row) :
    BatchAt c s' row.flushNo row.chunks := by
  cases hstep with
  | timer e run he hrun => exact (h.staging runId row hrow).append rfl
  | staged k flushNo input start ha =>
    cases of_update_eq_some hrow with
    | inl hrow => exact h.staging runId row hrow
    | inr hnew =>
      obtain rfl := Option.some.inj hnew
      obtain ⟨r, hr, rfl⟩ := h.chunk_input flushNo input _ _ (List.mem_of_getElem? ha)
      exact ⟨r, hr, start, rfl⟩
  | cleaned turns hs =>
    exact h.staging runId row ((of_update_eq_some hrow).resolve_right nofun)
  | stagingDeleted runId' =>
    exact h.staging runId row ((of_update_eq_some hrow).resolve_right nofun)
  | _ => exact h.staging runId row hrow

/-- Every event keeps the numbers right. -/
theorem labelled_step {c : ConversationConfig} {s s' : ConversationSystem} {e : SystemEvent}
    (h : Labelled c s) (hstep : s.Transition c e s') : Labelled c s' where
  redacting := redacting_step h hstep
  chunk_input := chunk_input_step h hstep
  staging := staging_step h hstep

theorem labelled_start (c : ConversationConfig) (input : ConversationMemoryInput)
    (workflowRunId : RunId) (now : Timestamp) : Labelled c (start input workflowRunId now) where
  redacting := fun _ hs => nomatch hs
  chunk_input := fun _ _ _ _ hmem => absurd hmem List.not_mem_nil
  staging := fun _ _ hrow => nomatch hrow

/-! ## What the store attempts have read -/

/-- Attempts that have read nothing yet are as good as none. -/
private theorem reads_started {flushNo : Nat} {target : StoreTarget} {input : StoreDocumentInput}
    {phase : StorePhase} {attempts : List Attempt}
    (hnew : ∀ a ∈ attempts, ∀ no t i p, a = .store no t i p → p = .started)
    (hmem : .store flushNo target input phase ∈ attempts) : phase.chunks? = none := by
  rw [hnew _ hmem flushNo target input phase rfl]
  rfl

/-- The attempts that begin with a scheduled activity have read nothing. -/
theorem started_storeAttempts (s : ConversationSystem) (run : ConversationRun) :
    ∀ a ∈ s.storeAttempts run, ∀ no t i p, a = .store no t i p → p = .started := by
  intro a ha no t i p heq
  subst heq
  unfold storeAttempts at ha
  split at ha
  · simp only [List.mem_cons, Attempt.store.injEq, List.not_mem_nil, or_false] at ha
    exact ha.elim (fun h => h.2.2.2) fun h => h.2.2.2
  · exact absurd ha List.not_mem_nil

theorem started_chunkAttempts (s : ConversationSystem) (run : ConversationRun) :
    ∀ a ∈ s.chunkAttempts run, ∀ no t i p, a = .store no t i p → p = .started := by
  intro a ha no t i p heq
  subst heq
  unfold chunkAttempts at ha
  split at ha <;> simp at ha

theorem started_restarted (attempt : Attempt) :
    ∀ a ∈ [Attempt.restarted attempt], ∀ no t i p, a = .store no t i p → p = .started := by
  intro a ha no t i p heq
  rw [List.mem_singleton.mp ha] at heq
  cases attempt with
  | chunk no' inp st b => exact nomatch heq
  | store no' t' i' p' => exact (Attempt.store.inj heq).2.2.2.symm

/-- The attempts of the store activities in `P` have read batches of their flushes. -/
def ReadBatches (c : ConversationConfig) (s : ConversationSystem) (P : Nat → StoreTarget → Prop) :
    Prop :=
  ∀ flushNo target input phase, .store flushNo target input phase ∈ s.attempts →
    P flushNo target → ∀ chunks ∈ phase.chunks?, BatchAt c s flushNo chunks

/-- They read batches of their flushes as long as each finds the row of its own flush when
    it reads staging. -/
theorem readBatches_step {c : ConversationConfig} {s s' : ConversationSystem} {e : SystemEvent}
    {P : Nat → StoreTarget → Prop} (hl : Labelled c s) (h : ReadBatches c s P)
    (hown : ∀ k flushNo target input row, e = .readStaging k →
      s.attempts[k]? = some (.store flushNo target input .started) →
      s.staging input.workflowRunId = some row → P flushNo target → row.flushNo = flushNo)
    (hstep : s.Transition c e s') : ReadBatches c s' P := by
  intro flushNo target input phase hmem hP chunks hchunks
  -- an attempt that was there before has read the batch of its flush
  have hold : .store flushNo target input phase ∈ s.attempts → BatchAt c s flushNo chunks :=
    fun hmem => h flushNo target input phase hmem hP chunks hchunks
  -- a new attempt has read nothing
  have hnew : phase.chunks? = none → BatchAt c s flushNo chunks := by
    intro hnone
    rw [hnone] at hchunks
    exact nomatch hchunks
  -- an attempt that goes on keeps the chunks that it has read
  have hset : ∀ k no t i p p', s.attempts[k]? = some (.store no t i p) → p'.chunks? = p.chunks? →
      .store flushNo target input phase ∈ s.attempts.set k (.store no t i p') →
      BatchAt c s flushNo chunks := by
    intro k no t i p p' ha hkept hmem
    cases List.mem_or_eq_of_mem_set hmem with
    | inl hmem => exact hold hmem
    | inr heq =>
      obtain ⟨rfl, rfl, rfl, rfl⟩ := Attempt.store.inj heq
      exact h flushNo target input p (List.mem_of_getElem? ha) hP chunks (hkept ▸ hchunks)
  cases hstep with
  | timer e run he hrun => exact (hold hmem).append rfl
  | redacted landed error turns hs =>
    cases List.mem_append.mp hmem with
    | inl hmem => exact hold hmem
    | inr hmem => exact hnew (reads_started (started_chunkAttempts _ _) hmem)
  | countRead k no inp ha =>
    exact hold ((List.mem_or_eq_of_mem_set hmem).resolve_right nofun)
  | staged k no inp start ha =>
    exact hold ((List.mem_or_eq_of_mem_set hmem).resolve_right nofun)
  | chunkDone k inp start flush ha hs =>
    cases List.mem_append.mp hmem with
    | inl hmem => exact hold hmem
    | inr hmem => exact hnew (reads_started (started_storeAttempts _ _) hmem)
  | stagingRead k no t inp row ha hrow =>
    cases List.mem_or_eq_of_mem_set hmem with
    | inl hmem => exact hold hmem
    | inr heq =>
      obtain ⟨rfl, rfl, rfl, rfl⟩ := Attempt.store.inj heq
      obtain rfl : row.chunks = chunks := Option.some.inj hchunks
      have hno := hown k flushNo target input row rfl ha hrow hP
      exact hno ▸ hl.staging input.workflowRunId row hrow
  | fenceChecked k no inp chunks' phase' ha hphase =>
    exact hset k no .weaviate inp (.read chunks') phase' ha hphase hmem
  | committedPg k now no inp chunks' ha =>
    exact hset k no .postgresql inp (.read chunks') (.finished chunks' _) ha rfl hmem
  | committedWv k now no inp chunks' output ha =>
    exact hset k no .weaviate inp (.permitted chunks') (.finished chunks' output) ha rfl hmem
  | retried k attempt ha =>
    cases List.mem_append.mp hmem with
    | inl hmem => exact hold hmem
    | inr hmem => exact hnew (reads_started (started_restarted attempt) hmem)
  | _ => exact hold hmem

/-! ## A sample conversation -/

/-- Detectors that find nothing, with the default settings. -/
def sampleConfig : ConversationConfig where
  redactText := fun text => .ok (text, [])

/-- A conversation that flushes each turn at once. -/
def sampleConversation : ConversationMemoryInput where
  workspaceId := "ws"
  externalId := "chat"
  userId := "user"
  tenantId := some 1
  flushCharThreshold := 1

/-- A turn with the id and the text, as a signal. -/
def turnSignal (turnId text : String) : SystemEvent :=
  .workflow (.addTurn { turnId := turnId, role := "user", text := text, ts := "t",
                        userId := "user" })

/-- The first flush up to its scheduled stores: attempt 0 chunks, attempts 1 and 2 store. -/
def firstFlush : List SystemEvent :=
  [.workflow .start, turnSignal "t1" "hi", .workflow .conditionMet, .workflow .conditionMet,
    .redactTurns [] none, .readChunkCount 0, .stageChunks 0, .chunkDone 0]

/-- Its stores return and it is cleaned up. -/
def firstStores : List SystemEvent :=
  [.readStaging 1, .commit 1 5, .readStaging 2, .checkFence 2, .storeDone 1, .commit 2 6,
    .storeDone 2, .workflow (.updateWorkspaceStats (.ok ())), .cleanupStaging]

/-- A flush that is stored, cleaned up and followed by the next turn. -/
def storedFlush : List SystemEvent := firstFlush ++ firstStores ++ [turnSignal "t2" "there"]

end ConversationSystem

end Inherent
