import Inherent.Spec.ConversationSystem
import Inherent.Spec.Store

/-!
# What becomes of a flush

A batch that `_flush` took is settled when a dead-letter row names its turns, or when its
dropped turns are in the redaction audit and the others are chunk rows of the document.
Every batch of every run of the conversation is settled once its flush is over, as long as
no PostgreSQL attempt of the flush under way is refused by the fence or finds its indices
taken, and a few writes of the flush are not lost (`KeepsBatch`).
-/

namespace Inherent

open EventRun

/-! ## Outcomes -/

/-- The audit row of a turn of the flush that a detector failed on. -/
def FlushRecord.audit (r : FlushRecord) (t : BufferedTurn) (exc : RedactionDetectorError) :
    RedactionAudit :=
  r.redactInput.audit { turnId := t.turnId, text := t.text, role := some t.role } exc

/-- The dead-letter row carries the turns of the flush. -/
def DeadLetterJob.Carries (job : DeadLetterJob) (r : FlushRecord) : Prop :=
  job.documentId = r.documentId ∧ job.workflowRunId = r.workflowRunId ∧
    job.turnIds = r.turns.map BufferedTurn.turnId

instance (job : DeadLetterJob) (r : FlushRecord) : Decidable (job.Carries r) :=
  inferInstanceAs (Decidable (_ ∧ _ ∧ _))

namespace ConversationSystem

/-- Every turn of the flush that redaction dropped is in the audit. -/
def DroppedAudited (c : ConversationConfig) (s : ConversationSystem) (r : FlushRecord) : Prop :=
  ∀ t ∈ r.turns, ∀ exc, c.redactText t.text = .error exc → r.audit t exc ∈ s.audits

/-- Every redacted turn of the flush has a chunk. -/
def TurnsHaveChunks (c : ConversationConfig) (r : FlushRecord) : Prop :=
  ∀ rt ∈ r.redacted c, (r.chunkInput c).pieces c.settings rt ≠ []

/-- The chunks of the flush are rows of the document. -/
def BatchStored (c : ConversationConfig) (s : ConversationSystem) (r : FlushRecord) : Prop :=
  ∃ chunks, IsBatchOf c r chunks ∧ HoldsChunks s.doc chunks

/-- What became of the turns of the flush is on record. -/
def Settled (c : ConversationConfig) (s : ConversationSystem) (r : FlushRecord) : Prop :=
  (∃ job ∈ s.deadLetters.rows, job.Carries r) ∨
    DroppedAudited c s r ∧ TurnsHaveChunks c r ∧ BatchStored c s r

/-- The flush with the number `i` is not over. -/
def UnderWay (s : ConversationSystem) (i : Nat) : Prop :=
  i + 1 = s.flushes.length ∧ ConversationRun.flushing s.run.await ≠ none

/-- Every flush that is over is settled. -/
def AllSettled (c : ConversationConfig) (s : ConversationSystem) : Prop :=
  ∀ i r, s.flushes[i]? = some r → ¬ s.UnderWay i → Settled c s r

/-- What keeps the flush under way from losing turns at an event:
    * the audit rows of the turns that `redact_turns` drops are all written;
    * the batch has a chunk when `chunk_conversation` returns, and each of its turns has one
      when `update_workspace_stats` returns;
    * a PostgreSQL attempt of this flush reads the row that this flush staged;
    * its commit passes the fence, and the index of each of its chunks is free or taken by
      a row that holds the chunk;
    * a dead-letter row under the key of the new one carries the same turns. -/
def KeepsBatch (c : ConversationConfig) (s : ConversationSystem) : SystemEvent → Prop
  | .redactTurns landed none =>
    match s.run.await with
    | .redactTurns turns =>
      let audits := (Inherent.redactTurns c.redactText (s.run.redactTurnsInput turns)).2
      landedAudits audits landed = audits
    | _ => True
  | .chunkDone k =>
    match s.attempts[k]? with
    | some (.chunk _ input _ _) => input.turnPieces c.settings ≠ []
    | _ => True
  | .workflow (.updateWorkspaceStats (.ok _)) =>
    match s.run.await with
    | .updateWorkspaceStats flush =>
      ∀ rt ∈ flush.redacted, (s.run.chunkConversationInput flush).pieces c.settings rt ≠ []
    | _ => True
  | .readStaging k =>
    match s.attempts[k]? with
    | some (.store flushNo .postgresql input .started) =>
      flushNo = s.flushNo → ∀ row ∈ s.staging input.workflowRunId, row.flushNo = flushNo
    | _ => True
  | .commit k _ =>
    match s.attempts[k]? with
    | some (.store flushNo .postgresql input (.read chunks)) =>
      flushNo = s.flushNo → isActiveRun input.workflowRunId s.doc ∧
        ∀ chunk ∈ chunks, ∀ row ∈ chunkRows s.doc, row.chunkIndex = chunk.chunkIndex →
          row.HoldsChunk chunk
    | _ => True
  | .recordDeadLetter =>
    match s.run.await with
    | .recordDeadLetter _ job =>
      ∀ row ∈ s.deadLetters.rows, row.key = job.key → row.turnIds = job.turnIds
    | _ => True
  | _ => True

instance (c : ConversationConfig) (s : ConversationSystem) (e : SystemEvent) :
    Decidable (KeepsBatch c s e) := by
  unfold KeepsBatch
  split
  · split <;> infer_instance
  · split <;> infer_instance
  · split <;> infer_instance
  · split
    · rename_i k flushNo input ha
      cases hrow : s.staging input.workflowRunId with
      | none => exact isTrue (by simp)
      | some row =>
        exact decidable_of_iff (flushNo = s.flushNo → row.flushNo = flushNo) (by simp)
    · infer_instance
  · split <;> infer_instance
  · split <;> infer_instance
  · infer_instance

/-! ## What stays settled -/

/-- The tables of `s'` have all that those of `s` have. -/
structure Grows (s s' : ConversationSystem) : Prop where
  rows : ∀ row ∈ chunkRows s.doc, row ∈ chunkRows s'.doc
  audits : ∀ a ∈ s.audits, a ∈ s'.audits
  deadLetters : ∀ job ∈ s.deadLetters.rows, job ∈ s'.deadLetters.rows

theorem Grows.of_eq {s s' : ConversationSystem} (hdoc : s'.doc = s.doc)
    (haudits : s'.audits = s.audits) (hjobs : s'.deadLetters = s.deadLetters) : Grows s s' where
  rows := fun _ hrow => hdoc ▸ hrow
  audits := fun _ ha => haudits ▸ ha
  deadLetters := fun _ hjob => hjobs ▸ hjob

theorem DroppedAudited.mono {c : ConversationConfig} {s s' : ConversationSystem}
    {r : FlushRecord} (h : DroppedAudited c s r) (hg : Grows s s') : DroppedAudited c s' r :=
  fun t ht exc hexc => hg.audits _ (h t ht exc hexc)

theorem BatchStored.mono {c : ConversationConfig} {s s' : ConversationSystem}
    {r : FlushRecord} (h : BatchStored c s r) (hg : Grows s s') : BatchStored c s' r := by
  obtain ⟨chunks, hbatch, hrows⟩ := h
  exact ⟨chunks, hbatch, hrows.mono hg.rows⟩

theorem Settled.mono {c : ConversationConfig} {s s' : ConversationSystem} {r : FlushRecord}
    (h : Settled c s r) (hg : Grows s s') : Settled c s' r := by
  rcases h with ⟨job, hjob, hcarries⟩ | ⟨hdropped, hturns, hstored⟩
  · exact Or.inl ⟨job, hg.deadLetters job hjob, hcarries⟩
  · exact Or.inr ⟨hdropped.mono hg, hturns, hstored.mono hg⟩

/-- A settled flush is dead-lettered or its texts are contents of chunk rows. -/
theorem contents_of_settled {c : ConversationConfig} {s : ConversationSystem}
    {r : FlushRecord} (h : Settled c s r) :
    (∃ job ∈ s.deadLetters.rows, job.Carries r) ∨
      ∀ p ∈ (r.chunkInput c).turnPieces c.settings, ∃ row ∈ chunkRows s.doc,
        row.content = p.2.1 := by
  refine h.imp_right fun ⟨_, _, chunks, ⟨start, hchunks⟩, hrows⟩ p hp => ?_
  have hmem : p.2.1 ∈ chunks.map StagedChunk.content := by
    rw [hchunks, chunkConversation_content]
    exact List.mem_map_of_mem hp
  obtain ⟨chunk, hchunk, hcontent⟩ := List.mem_map.mp hmem
  obtain ⟨row, hrow, hholds⟩ := hrows chunk hchunk
  exact ⟨row, hrow, hholds.2.1.trans hcontent⟩

/-- A turn that redaction kept, of a settled flush without a dead-letter row, is in chunk
    rows: it has a piece, and each of its pieces is the content of a row. -/
theorem rows_of_settled {c : ConversationConfig} {s : ConversationSystem} {r : FlushRecord}
    {t : BufferedTurn} {text : String} {counts : RedactionCounts} (h : Settled c s r)
    (hjobs : ∀ job ∈ s.deadLetters.rows, ¬ job.Carries r) (ht : t ∈ r.turns)
    (hkept : c.redactText t.text = .ok (text, counts)) :
    ∃ rt ∈ r.redacted c, rt.turnId = t.turnId ∧ rt.text = text ∧
      (r.chunkInput c).pieces c.settings rt ≠ [] ∧
      ∀ p ∈ (r.chunkInput c).pieces c.settings rt, ∃ row ∈ chunkRows s.doc,
        row.content = p.1 := by
  have hno : ¬ ∃ job ∈ s.deadLetters.rows, job.Carries r :=
    fun ⟨job, hjob, hcarries⟩ => hjobs job hjob hcarries
  have hturns := (h.resolve_left hno).2.1
  have hcontents := (contents_of_settled h).resolve_left hno
  have hturn : { turnId := t.turnId, text := t.text, role := some t.role } ∈ r.redactInput.turns :=
    List.mem_map_of_mem ht
  obtain ⟨rt, hrt, hid, htext, -⟩ := exists_mem_redactTurns hturn hkept
  refine ⟨rt, hrt, hid, htext, hturns rt hrt, fun p hp => ?_⟩
  exact hcontents (rt, p) (List.mem_flatMap_of_mem hrt (List.mem_map_of_mem hp))

/-! ## Where the flush under way is -/

/-- What is known of the flush `r` when its run is at the `await`. -/
def Progress (c : ConversationConfig) (s : ConversationSystem) (r : FlushRecord) : Await → Prop
  | .chunkConversation flush => flush.redacted = r.redacted c ∧ DroppedAudited c s r
  | .store flush _ pg _ =>
    flush.redacted = r.redacted c ∧ DroppedAudited c s r ∧ (pg ≠ none → BatchStored c s r)
  | .updateWorkspaceStats flush =>
    flush.redacted = r.redacted c ∧ DroppedAudited c s r ∧ BatchStored c s r
  | .recordDeadLetter _ job => job.Carries r
  | .cleanupStaging _ => Settled c s r
  | _ => True

theorem Progress.mono {c : ConversationConfig} {s s' : ConversationSystem} {r : FlushRecord}
    {await : Await} (h : Progress c s r await) (hg : Grows s s') : Progress c s' r await := by
  cases await with
  | chunkConversation flush => exact ⟨h.1, h.2.mono hg⟩
  | store flush input pg wv => exact ⟨h.1, h.2.1.mono hg, fun hpg => (h.2.2 hpg).mono hg⟩
  | updateWorkspaceStats flush => exact ⟨h.1, h.2.1.mono hg, h.2.2.mono hg⟩
  | cleanupStaging turns => exact Settled.mono h hg
  | _ => exact h

/-- The last flush is settled, or it is under way in `run` and known to have come so far. -/
def LastFlush (c : ConversationConfig) (s : ConversationSystem) (run : ConversationRun) : Prop :=
  match ConversationRun.flushing run.await with
  | none => ∀ r ∈ s.flushes.getLast?, Settled c s r
  | some turns => s.flushes.getLast? = some (run.flushRecord turns) ∧
      Progress c s (run.flushRecord turns) run.await

theorem lastFlush_of_flushing_eq_none {c : ConversationConfig} {s : ConversationSystem}
    {run : ConversationRun} (h : ConversationRun.flushing run.await = none) :
    LastFlush c s run ↔ ∀ r ∈ s.flushes.getLast?, Settled c s r := by
  unfold LastFlush
  rw [h]

theorem lastFlush_of_flushing {c : ConversationConfig} {s : ConversationSystem}
    {run : ConversationRun} {turns : List BufferedTurn}
    (h : ConversationRun.flushing run.await = some turns) :
    LastFlush c s run ↔ s.flushes.getLast? = some (run.flushRecord turns) ∧
      Progress c s (run.flushRecord turns) run.await := by
  unfold LastFlush
  rw [h]

/-- What is known of the flush at the `await` of its run. -/
private theorem LastFlush.progress {c : ConversationConfig} {s : ConversationSystem}
    {run : ConversationRun} {await : Await} {turns : List BufferedTurn} (h : LastFlush c s run)
    (hs : run.await = await) (hflush : ConversationRun.flushing await = some turns) :
    s.flushes.getLast? = some (run.flushRecord turns) ∧
      Progress c s (run.flushRecord turns) await := by
  subst hs
  exact (lastFlush_of_flushing hflush).mp h

theorem LastFlush.mono {c : ConversationConfig} {s s' : ConversationSystem}
    {run : ConversationRun} (h : LastFlush c s run) (hg : Grows s s')
    (hflushes : s'.flushes = s.flushes) : LastFlush c s' run := by
  unfold LastFlush at h ⊢
  rw [hflushes]
  split
  · rename_i hnone
    rw [hnone] at h
    exact fun r hr => (h r hr).mono hg
  · rename_i turns hsome
    rw [hsome] at h
    exact ⟨h.1, h.2.mono hg⟩

/-- An event that leaves the run at its `await` leaves the flush where it is. -/
private theorem LastFlush.sameAwait {c : ConversationConfig} {s : ConversationSystem}
    {run run' : ConversationRun} (h : LastFlush c s run) (hsame : run.SameRun run')
    (hawait : run'.await = run.await) : LastFlush c s run' := by
  unfold LastFlush at h ⊢
  rw [hawait]
  split
  · rename_i hnone
    rw [hnone] at h
    exact h
  · rename_i turns hsome
    rw [hsome] at h
    rw [flushRecord_of_sameRun hsame turns]
    exact h

/-- The flush of `turns` ends settled. -/
private theorem lastFlush_afterFlush {c : ConversationConfig} {s : ConversationSystem}
    {run : ConversationRun} {r : FlushRecord} (turns : List BufferedTurn)
    (hlast : s.flushes.getLast? = some r) (h : Settled c s r) :
    LastFlush c s (run.afterFlush turns) := by
  rw [lastFlush_of_flushing_eq_none (ConversationRun.flushing_afterFlush run turns), hlast]
  intro r' hr'
  exact Option.some.inj hr' ▸ h

/-- A dead-letter job carries the turns of the flush that it was made for. -/
private theorem lastFlush_deadLetterFlush {c : ConversationConfig} {s : ConversationSystem}
    {run : ConversationRun} {turns : List BufferedTurn} (error stage : String)
    (redacted : Option (List RedactedTurn))
    (hlast : s.flushes.getLast? = some (run.flushRecord turns)) :
    LastFlush c s (run.deadLetterFlush turns error stage redacted) :=
  (lastFlush_of_flushing rfl).mpr ⟨hlast, rfl, rfl, rfl⟩

/-! ### The steps of a flush -/

/-- `redact_turns` ends: the flush is dead-lettered, all its turns are dropped and audited,
    or it goes on with what is left of them. -/
private theorem lastFlush_afterRedact {c : ConversationConfig} {s s' : ConversationSystem}
    {turns : List BufferedTurn} {error : Option String}
    (hlast : s'.flushes.getLast? = some (s.run.flushRecord turns))
    (haudited : error = none → DroppedAudited c s' (s.run.flushRecord turns)) :
    LastFlush c s' (s.run.afterRedact turns (redactOutcome c s turns error)) := by
  cases error with
  | some error => exact lastFlush_deadLetterFlush _ _ _ hlast
  | none =>
    have hdropped := haudited rfl
    unfold redactOutcome ConversationRun.afterRedact
    dsimp only
    split
    · rename_i hempty
      -- every turn was dropped: the flush ends, and its batch is the empty one
      have hnone : (s.run.flushRecord turns).redacted c = [] := hempty
      apply lastFlush_afterFlush turns hlast
      refine Or.inr ⟨hdropped, ?_, [], ⟨0, ?_⟩, nofun⟩
      · intro rt hrt
        rw [hnone] at hrt
        exact absurd hrt List.not_mem_nil
      · simp [chunkConversation, ChunkConversationInput.turnPieces, FlushRecord.chunkInput, hnone]
    · exact (lastFlush_of_flushing rfl).mpr ⟨hlast, rfl, hdropped⟩

/-- `chunk_conversation` returns a batch with a chunk: the stores begin. -/
private theorem lastFlush_afterChunk {c : ConversationConfig} {s : ConversationSystem}
    {run : ConversationRun} {flush : Flush} {count : Nat} (hs : run.await = .chunkConversation flush)
    (h : LastFlush c s run) (hcount : count ≠ 0) : LastFlush c s (run.afterChunk flush (.ok count)) := by
  obtain ⟨hlast, hredacted, hdropped⟩ := h.progress hs rfl
  simp only [ConversationRun.afterChunk, if_neg hcount]
  exact (lastFlush_of_flushing rfl).mpr ⟨hlast, hredacted, hdropped, fun hpg => absurd rfl hpg⟩

/-- A store returns: PostgreSQL has the batch when its store is among those. -/
private theorem lastFlush_afterStore {c : ConversationConfig} {s : ConversationSystem}
    {run : ConversationRun} {flush : Flush} {input : StoreDocumentInput}
    {pg wv : Option StoreDocumentOutput} {target : StoreTarget} {output : StoreDocumentOutput}
    (hs : run.await = .store flush input pg wv) (h : LastFlush c s run)
    (hstored : target = .postgresql → BatchStored c s (run.flushRecord flush.turns)) :
    LastFlush c s (run.afterStore flush input pg wv target (.ok output)) := by
  obtain ⟨hlast, hredacted, hdropped, hpg⟩ := h.progress hs rfl
  -- of the two stores only that of PostgreSQL says that the batch has rows
  have hnow : (if target = .postgresql then some output else pg) ≠ none →
      BatchStored c s (run.flushRecord flush.turns) := by
    intro hne
    by_cases ht : target = .postgresql
    · exact hstored ht
    · exact hpg (by rwa [if_neg ht] at hne)
  simp only [ConversationRun.afterStore]
  split
  · rename_i pg' wv' hpg' _
    exact (lastFlush_of_flushing rfl).mpr
      ⟨hlast, hredacted, hdropped, hnow (by rw [hpg']; exact Option.some_ne_none pg')⟩
  · exact (lastFlush_of_flushing rfl).mpr ⟨hlast, hredacted, hdropped, hnow⟩

/-- `update_workspace_stats` returns or fails: the flush is settled or dead-lettered. -/
private theorem lastFlush_afterStats {c : ConversationConfig} {s : ConversationSystem}
    {run : ConversationRun} {flush : Flush} {result : ActivityResult Unit}
    (hs : run.await = .updateWorkspaceStats flush) (h : LastFlush c s run)
    (hturns : result = .ok () → ∀ rt ∈ flush.redacted,
      (run.chunkConversationInput flush).pieces c.settings rt ≠ []) :
    LastFlush c s (run.afterStats flush result) := by
  obtain ⟨hlast, hredacted, hdropped, hstored⟩ := h.progress hs rfl
  cases result with
  | failed error => exact lastFlush_deadLetterFlush _ _ _ hlast
  | ok _ =>
    refine (lastFlush_of_flushing rfl).mpr ⟨hlast, Or.inr ⟨hdropped, ?_, hstored⟩⟩
    intro rt hrt
    exact hturns rfl rt (hredacted ▸ hrt)

/-- Every other event of the run. -/
private theorem lastFlush_local {c : ConversationConfig} {s : ConversationSystem}
    {run : ConversationRun} {e : WorkflowEvent} (hlocal : isLocal e = true)
    (hc : e ≠ .conditionMet) (ht : e ≠ .timeout)
    (hkeeps : ∀ flush, e = .updateWorkspaceStats (.ok ()) →
      s.run.await = .updateWorkspaceStats flush → ∀ rt ∈ flush.redacted,
        (s.run.chunkConversationInput flush).pieces c.settings rt ≠ [])
    (h : LastFlush c s s.run) (hrun : s.run.Transition e run) : LastFlush c s run := by
  -- outside a flush nothing is under way before or after
  have hidle : ConversationRun.flushing s.run.await = none →
      ConversationRun.flushing run.await = none → LastFlush c s run := by
    intro hbefore hafter
    rw [lastFlush_of_flushing_eq_none hbefore] at h
    exact (lastFlush_of_flushing_eq_none hafter).mpr h
  cases hrun with
  | addTurn turn hne => exact h.sameAwait (s.run.sameRun_addTurn turn) rfl
  | close hne => exact h.sameAwait ⟨rfl, rfl, rfl⟩ rfl
  | tick now hle => exact h.sameAwait ⟨rfl, rfl, rfl⟩ rfl
  | start hs => exact hidle (by rw [hs]; rfl) (ConversationRun.flushing_begin _)
  | idleMet deadline hs hcond => exact absurd rfl hc
  | debounceMet deadline hs hcond => exact absurd rfl hc
  | idleTimeout deadline hs hcond hd => exact absurd rfl ht
  | debounceTimeout deadline hs hcond hd => exact absurd rfl ht
  | tenantReady tenantId hs => exact hidle (by rw [hs]; rfl) (ConversationRun.flushing_loop _)
  | tenantFailed error hs => exact hidle (by rw [hs]; rfl) rfl
  | redacted turns result hs => exact nomatch hlocal
  | chunked flush result hs =>
    cases result with
    | ok count => exact nomatch hlocal
    | failed error => exact lastFlush_deadLetterFlush _ _ _ (h.progress hs rfl).1
  | stored flush input pg wv target result hs hw =>
    cases result with
    | ok output => exact nomatch hlocal
    | failed error => exact lastFlush_deadLetterFlush _ _ _ (h.progress hs rfl).1
  | statsUpdated flush result hs =>
    exact lastFlush_afterStats hs h fun hok => hkeeps flush (by rw [hok]) hs
  | deadLettered turns job result hs => exact nomatch hlocal
  | cleaned turns result hs =>
    obtain ⟨hlast, hsettled⟩ := h.progress hs rfl
    exact lastFlush_afterFlush turns hlast hsettled
  | published result hs => exact hidle (by rw [hs]; rfl) rfl

/-! ## The attempts of the stores -/

/-- The flush is settled or on its way, earlier ones are settled, and what the PostgreSQL
    attempts of the last flush have read and committed is its batch. -/
structure Tracked (c : ConversationConfig) (s : ConversationSystem) : Prop where
  past : ∀ i r, s.flushes[i]? = some r → i + 1 < s.flushes.length → Settled c s r
  last : LastFlush c s s.run
  known : ∀ flushNo target input phase, .store flushNo target input phase ∈ s.attempts →
    flushNo < s.flushes.length ∧ input.append = true
  reads : ReadBatches c s fun flushNo target => flushNo = s.flushNo ∧ target = .postgresql
  stored : ∀ input chunks output,
    .store s.flushNo .postgresql input (.finished chunks output) ∈ s.attempts →
    HoldsChunks s.doc chunks

/-- No event but the start of a flush changes the records. -/
private theorem flushes_step {c : ConversationConfig} {s s' : ConversationSystem}
    {e : SystemEvent} (hstep : s.Transition c e s') :
    s'.flushes = s.flushes ∨
      ∃ run turns, run.await = .redactTurns turns ∧ s' = s.afterTimer run ∧
        s'.flushes = s.flushes ++ [run.flushRecord turns] := by
  cases hstep with
  | timer e run he hrun =>
    by_cases hbegun : ∃ turns, run.await = .redactTurns turns
    · obtain ⟨turns, hs⟩ := hbegun
      refine Or.inr ⟨run, turns, hs, rfl, ?_⟩
      simp only [afterTimer, begunFlushes, hs]
    · refine Or.inl ?_
      have hnone : begunFlushes run = [] := by
        unfold begunFlushes
        split
        · rename_i turns hs
          exact absurd ⟨turns, hs⟩ hbegun
        · rfl
      simp only [afterTimer, hnone, List.append_nil]
  | _ => exact Or.inl rfl

/-- An attempt that was there before and is for the last flush now was for it before. -/
private theorem flushNo_of_known {c : ConversationConfig} {s s' : ConversationSystem}
    {e : SystemEvent} (hstep : s.Transition c e s') {no : Nat}
    (hknown : no < s.flushes.length) (h : no = s'.flushNo) : no = s.flushNo := by
  rcases flushes_step hstep with heq | ⟨run, turns, -, -, heq⟩
  · rw [h, flushNo, flushNo, heq]
  · rw [flushNo, heq, List.length_append, List.length_singleton] at h
    omega

/-- Every event keeps what the tables have: the stores of a conversation append. -/
private theorem grows_step {c : ConversationConfig} {s s' : ConversationSystem}
    {e : SystemEvent} (h : Tracked c s) (hstep : s.Transition c e s') : Grows s s' := by
  cases hstep with
  | redacted landed error turns hs =>
    exact ⟨fun _ => id, fun a ha => List.mem_append_left _ ha, fun _ => id⟩
  | committedPg k now flushNo input chunks ha =>
    have happ := (h.known flushNo .postgresql input _ (List.mem_of_getElem? ha)).2
    exact ⟨fun row hrow => mem_chunkRows_of_append now chunks happ hrow, fun _ => id, fun _ => id⟩
  | deadLettered turns job hs =>
    exact ⟨fun _ => id, fun _ => id, fun job' hjob' =>
      (UniqueTable.rows_prefix_insertNew s.deadLetters job).subset hjob'⟩
  | _ => exact Grows.of_eq rfl rfl rfl

/-- An attempt that `chunk_conversation` schedules is for the last flush and appends. -/
private theorem known_storeAttempts {s : ConversationSystem} {run : ConversationRun}
    {flush : Flush} {count flushNo : Nat} {target : StoreTarget} {input : StoreDocumentInput}
    {phase : StorePhase}
    (hmem : .store flushNo target input phase ∈ s.storeAttempts (run.afterChunk flush (.ok count))) :
    flushNo = s.flushNo ∧ input.append = true := by
  unfold storeAttempts at hmem
  split at hmem
  · rename_i flush' input' pg wv hawait
    -- `chunk_conversation` with no chunk ends the flush, and no store is scheduled
    have happ : input'.append = true := by
      simp only [ConversationRun.afterChunk] at hawait
      split at hawait
      · have hnone := ConversationRun.flushing_afterFlush run flush.turns
        rw [hawait] at hnone
        cases hnone
      · obtain ⟨-, rfl, -, -⟩ := Await.store.inj hawait
        rfl
    simp only [List.mem_cons, Attempt.store.injEq, List.not_mem_nil, or_false] at hmem
    rcases hmem with ⟨rfl, -, rfl, -⟩ | ⟨rfl, -, rfl, -⟩ <;> exact ⟨rfl, happ⟩
  · exact absurd hmem List.not_mem_nil

private theorem known_step {c : ConversationConfig} {s s' : ConversationSystem}
    {e : SystemEvent} (hl : Labelled c s) (h : Tracked c s) (hstep : s.Transition c e s')
    (flushNo : Nat) (target : StoreTarget) (input : StoreDocumentInput) (phase : StorePhase)
    (hmem : .store flushNo target input phase ∈ s'.attempts) :
    flushNo < s'.flushes.length ∧ input.append = true := by
  have hold : ∀ phase, .store flushNo target input phase ∈ s.attempts →
      flushNo < s.flushes.length ∧ input.append = true := fun phase => h.known _ _ _ phase
  -- an attempt that goes on keeps its number and input
  have hset : ∀ k no t i p p', s.attempts[k]? = some (.store no t i p) →
      .store flushNo target input phase ∈ s.attempts.set k (.store no t i p') →
      flushNo < s.flushes.length ∧ input.append = true := by
    intro k no t i p p' ha hmem
    cases List.mem_or_eq_of_mem_set hmem with
    | inl hmem => exact hold _ hmem
    | inr heq =>
      obtain ⟨rfl, rfl, rfl, -⟩ := Attempt.store.inj heq
      exact hold p (List.mem_of_getElem? ha)
  cases hstep with
  | timer e run he hrun =>
    obtain ⟨hlt, happ⟩ := hold phase hmem
    refine ⟨?_, happ⟩
    rw [afterTimer, List.length_append]
    omega
  | redacted landed error turns hs =>
    cases List.mem_append.mp hmem with
    | inl hmem => exact hold _ hmem
    | inr hmem =>
      unfold chunkAttempts at hmem
      split at hmem <;> simp at hmem
  | countRead k no inp ha => exact hold _ ((List.mem_or_eq_of_mem_set hmem).resolve_right nofun)
  | staged k no inp start ha =>
    exact hold _ ((List.mem_or_eq_of_mem_set hmem).resolve_right nofun)
  | chunkDone k inp start flush ha hs =>
    cases List.mem_append.mp hmem with
    | inl hmem => exact hold _ hmem
    | inr hmem =>
      obtain ⟨hno, happ⟩ := known_storeAttempts hmem
      obtain ⟨r, hr, -⟩ := hl.chunk_input _ _ _ _ (List.mem_of_getElem? ha)
      exact ⟨hno ▸ (List.getElem?_eq_some_iff.mp hr).1, happ⟩
  | stagingRead k no t inp row ha hrow => exact hset k no t inp _ _ ha hmem
  | fenceChecked k no inp chunks phase' ha hphase => exact hset k no .weaviate inp _ _ ha hmem
  | committedPg k now no inp chunks ha => exact hset k no .postgresql inp _ _ ha hmem
  | committedWv k now no inp chunks output ha => exact hset k no .weaviate inp _ _ ha hmem
  | retried k attempt ha =>
    cases List.mem_append.mp hmem with
    | inl hmem => exact hold _ hmem
    | inr hmem =>
      have heq := List.mem_singleton.mp hmem
      cases attempt with
      | chunk no inp st b => exact nomatch heq
      | store no t inp p =>
        obtain ⟨rfl, rfl, rfl, -⟩ := Attempt.store.inj heq
        exact hold p (List.mem_of_getElem? ha)
  | _ => exact hold _ hmem

private theorem readsStaged_step {c : ConversationConfig} {s s' : ConversationSystem}
    {e : SystemEvent} (hl : Labelled c s) (h : Tracked c s) (hkeeps : KeepsBatch c s e)
    (hstep : s.Transition c e s') :
    ReadBatches c s' fun flushNo target => flushNo = s'.flushNo ∧ target = .postgresql := by
  have hreads : ReadBatches c s fun flushNo target =>
      flushNo = s'.flushNo ∧ target = .postgresql := by
    intro flushNo target input phase hmem hlast
    have hno := flushNo_of_known hstep (h.known _ _ _ _ hmem).1 hlast.1
    exact h.reads flushNo target input phase hmem ⟨hno, hlast.2⟩
  refine readBatches_step hl hreads ?_ hstep
  intro k flushNo target input row he ha hrow hlast
  obtain ⟨hno, rfl⟩ := hlast
  subst he
  simp only [KeepsBatch, ha] at hkeeps
  have hknown := (h.known _ _ _ _ (List.mem_of_getElem? ha)).1
  exact hkeeps (flushNo_of_known hstep hknown hno) row hrow

private theorem stored_step {c : ConversationConfig} {s s' : ConversationSystem}
    {e : SystemEvent} (h : Tracked c s) (hkeeps : KeepsBatch c s e) (hstep : s.Transition c e s')
    (input : StoreDocumentInput) (chunks : List StagedChunk) (output : StoreDocumentOutput)
    (hmem : .store s'.flushNo .postgresql input (.finished chunks output) ∈ s'.attempts) :
    HoldsChunks s'.doc chunks := by
  -- an attempt that had committed before
  have hold : .store s'.flushNo .postgresql input (.finished chunks output) ∈ s.attempts →
      HoldsChunks s'.doc chunks := by
    intro hmem
    have hno := flushNo_of_known hstep (h.known _ _ _ _ hmem).1 rfl
    exact (h.stored input chunks output (hno ▸ hmem)).mono (grows_step h hstep).rows
  -- a new attempt has not committed
  have hnew : ∀ attempts : List Attempt,
      (∀ a ∈ attempts, ∀ no t i p, a = .store no t i p → p = .started) →
      .store s'.flushNo .postgresql input (.finished chunks output) ∉ attempts := by
    intro attempts hstarted hmem
    exact nomatch hstarted _ hmem _ _ _ _ rfl
  cases hstep with
  | redacted landed error turns hs =>
    exact hold ((List.mem_append.mp hmem).resolve_right
      (hnew _ (started_chunkAttempts _ _)))
  | countRead k no inp ha => exact hold ((List.mem_or_eq_of_mem_set hmem).resolve_right nofun)
  | staged k no inp start ha =>
    exact hold ((List.mem_or_eq_of_mem_set hmem).resolve_right nofun)
  | chunkDone k inp start flush ha hs =>
    exact hold ((List.mem_append.mp hmem).resolve_right
      (hnew _ (started_storeAttempts _ _)))
  | stagingRead k no t inp row ha hrow =>
    cases List.mem_or_eq_of_mem_set hmem with
    | inl hmem => exact hold hmem
    | inr heq => exact nomatch (Attempt.store.inj heq).2.2.2
  | fenceChecked k no inp chunks' phase ha hphase =>
    cases List.mem_or_eq_of_mem_set hmem with
    | inl hmem => exact hold hmem
    | inr heq => exact nomatch (Attempt.store.inj heq).2.1
  | committedPg k now no inp chunks' ha =>
    cases List.mem_or_eq_of_mem_set hmem with
    | inl hmem => exact hold hmem
    | inr heq =>
      obtain ⟨hno, -, rfl, hphase⟩ := Attempt.store.inj heq
      obtain ⟨rfl, -⟩ := StorePhase.finished.inj hphase
      obtain rfl : s.flushNo = no := hno
      have hread := List.mem_of_getElem? ha
      simp only [KeepsBatch, ha, true_implies] at hkeeps
      obtain ⟨r, -, start, hchunks⟩ := h.reads _ _ input _ hread ⟨rfl, rfl⟩ chunks rfl
      have hnd : (chunks.map StagedChunk.chunkIndex).Nodup := by
        -- the indices of a batch are consecutive from where it starts
        rw [hchunks, chunkConversation_chunkIndex]
        exact List.nodup_range'
      exact holdsChunks_append now (h.known _ _ _ _ hread).2 hkeeps.1 hnd hkeeps.2
  | committedWv k now no inp chunks' output' ha =>
    cases List.mem_or_eq_of_mem_set hmem with
    | inl hmem => exact hold hmem
    | inr heq => exact nomatch (Attempt.store.inj heq).2.1
  | retried k attempt ha =>
    exact hold ((List.mem_append.mp hmem).resolve_right
      (hnew _ (started_restarted attempt)))
  | _ => exact hold hmem

/-! ## Every event -/

/-- A PostgreSQL attempt of the last flush that is done has stored its batch. -/
private theorem batchStored_of_finished {c : ConversationConfig} {s : ConversationSystem}
    {r : FlushRecord} {input : StoreDocumentInput} {chunks : List StagedChunk}
    {output : StoreDocumentOutput} (h : Tracked c s) (hlast : s.flushes.getLast? = some r)
    (hmem : .store s.flushNo .postgresql input (.finished chunks output) ∈ s.attempts) :
    BatchStored c s r := by
  obtain ⟨r', hr', hbatch⟩ := h.reads _ _ input _ hmem ⟨rfl, rfl⟩ chunks rfl
  rw [flushNo, ← List.getLast?_eq_getElem?, hlast] at hr'
  obtain rfl := Option.some.inj hr'
  exact ⟨chunks, hbatch, h.stored input chunks output hmem⟩

/-- A timer or a condition of the loop resumes no run that is in a flush, and at most begins
    one. -/
private theorem flushing_of_timer {run run' : ConversationRun} {e : WorkflowEvent}
    (he : e = .conditionMet ∨ e = .timeout) (hrun : run.Transition e run') :
    ConversationRun.flushing run.await = none ∧
      (ConversationRun.flushing run'.await = none ∨ ∃ turns, run'.await = .redactTurns turns) := by
  have hflush : ConversationRun.flushing run.flush.await = none ∨
      ∃ turns, run.flush.await = .redactTurns turns :=
    (ConversationRun.flush_await run).imp_right fun h => ⟨_, h⟩
  cases hrun with
  | idleMet deadline hs hc =>
    exact ⟨by rw [hs]; rfl, Or.inl (ConversationRun.flushing_afterIdle run)⟩
  | debounceMet deadline hs hc => exact ⟨by rw [hs]; rfl, hflush⟩
  | idleTimeout deadline hs hc hd => exact ⟨by rw [hs]; rfl, Or.inl rfl⟩
  | debounceTimeout deadline hs hc hd => exact ⟨by rw [hs]; rfl, hflush⟩
  | _ => rcases he with he | he <;> exact nomatch he

/-- The new dead-letter row, or the one that has its key, carries the turns. -/
private theorem settled_insertNew {c : ConversationConfig} {s s' : ConversationSystem}
    {r : FlushRecord} {job : DeadLetterJob} (hjobs : s'.deadLetters = s.deadLetters.insertNew job)
    (hcarries : job.Carries r)
    (hkey : ∀ row ∈ s.deadLetters.rows, row.key = job.key → row.turnIds = job.turnIds) :
    Settled c s' r := by
  have hnew := (UniqueTable.holds_insertNew (t := s.deadLetters) (r := job)).mpr (Or.inr rfl)
  -- `on_conflict_do_nothing` keeps the row that has the key, and that row carries the turns too
  by_cases hheld : s.deadLetters.Holds job.key
  · obtain ⟨row, hrow, hrowkey⟩ := UniqueTable.holds_iff.mp hheld
    obtain ⟨hdoc, hrunId, -⟩ : row.documentId = job.documentId ∧
        row.workflowRunId = job.workflowRunId ∧ row.dedupKey = job.dedupKey := by
      simpa only [DeadLetterJob.key, Prod.mk.injEq] using hrowkey
    refine Or.inl ⟨row, ?_, hdoc.trans hcarries.1, hrunId.trans hcarries.2.1,
      (hkey row hrow hrowkey).trans hcarries.2.2⟩
    rw [hjobs, UniqueTable.insertNew_of_holds hheld]
    exact hrow
  · refine Or.inl ⟨job, ?_, hcarries⟩
    rw [hjobs, UniqueTable.rows_insertNew_of_not_holds hheld]
    exact List.mem_append_right _ List.mem_cons_self

/-- `redact_turns` audits every turn that it drops when all its audit rows are written. -/
private theorem droppedAudited_of_landed {c : ConversationConfig} {s s' : ConversationSystem}
    {turns : List BufferedTurn} {landed : List Bool}
    (haudits : s'.audits = s.audits ++ landedAudits
      (Inherent.redactTurns c.redactText (s.run.redactTurnsInput turns)).2 landed)
    (hlanded : landedAudits (Inherent.redactTurns c.redactText (s.run.redactTurnsInput turns)).2
      landed = (Inherent.redactTurns c.redactText (s.run.redactTurnsInput turns)).2) :
    DroppedAudited c s' (s.run.flushRecord turns) := by
  intro t ht exc hexc
  rw [haudits, hlanded]
  apply List.mem_append_right
  exact audit_mem_redactTurns (List.mem_map_of_mem ht) hexc

private theorem last_step {c : ConversationConfig} {s s' : ConversationSystem}
    {e : SystemEvent} (hl : Labelled c s) (h : Tracked c s) (hkeeps : KeepsBatch c s e)
    (hstep : s.Transition c e s') : LastFlush c s' s'.run := by
  have hg := grows_step h hstep
  have hlast := h.last
  cases hstep with
  | timer e run he hrun =>
    obtain ⟨hbefore, hafter | ⟨turns, hs⟩⟩ := flushing_of_timer he hrun
    · have hbegun : begunFlushes run = [] := by
        unfold begunFlushes
        split
        · rename_i turns hs
          rw [hs] at hafter
          cases hafter
        · rfl
      -- no flush was under way and none begins: the last one stays settled
      rw [lastFlush_of_flushing_eq_none hbefore] at hlast
      refine (lastFlush_of_flushing_eq_none hafter).mpr fun r hr => ?_
      simp only [afterTimer, hbegun, List.append_nil] at hr
      exact (hlast r hr).mono hg
    · refine (lastFlush_of_flushing (by rw [afterTimer, hs]; rfl)).mpr ⟨?_, ?_⟩
      · simp only [afterTimer, begunFlushes, hs, List.getLast?_concat]
      · simp only [afterTimer, hs]
        trivial
  | «local» e run hlocal hc ht hrun =>
    have hturns : ∀ flush, e = .updateWorkspaceStats (.ok ()) →
        s.run.await = .updateWorkspaceStats flush → ∀ rt ∈ flush.redacted,
          (s.run.chunkConversationInput flush).pieces c.settings rt ≠ [] := by
      intro flush he hs
      subst he
      simpa only [KeepsBatch, hs] using hkeeps
    exact (lastFlush_local hlocal hc ht hturns hlast hrun).mono hg rfl
  | redacted landed error turns hs =>
    refine lastFlush_afterRedact (hl.redacting turns hs) fun herror => ?_
    subst herror
    simp only [KeepsBatch, hs] at hkeeps
    exact droppedAudited_of_landed rfl hkeeps
  | chunkDone k input start flush ha hs =>
    simp only [KeepsBatch, ha] at hkeeps
    have hcount : (Inherent.chunkConversation c.settings input start).length ≠ 0 := by
      simpa [Inherent.chunkConversation] using hkeeps
    exact (lastFlush_afterChunk hs hlast hcount).mono hg rfl
  | storeDone k target input chunks output flush storeInput pg wv ha hs hw =>
    have hrecord := (hlast.progress hs rfl).1
    refine (lastFlush_afterStore hs hlast fun htarget => ?_).mono hg rfl
    subst htarget
    exact batchStored_of_finished h hrecord (List.mem_of_getElem? ha)
  | deadLettered turns job hs =>
    obtain ⟨hrecord, hcarries⟩ := hlast.progress hs rfl
    simp only [KeepsBatch, hs] at hkeeps
    exact lastFlush_afterFlush turns hrecord (settled_insertNew rfl hcarries hkeeps)
  | cleaned turns hs =>
    obtain ⟨hrecord, hsettled⟩ := hlast.progress hs rfl
    exact lastFlush_afterFlush turns hrecord (Settled.mono hsettled hg)
  | nextRun input runId now outcome hs hf hr =>
    have hbefore : ConversationRun.flushing s.run.await = none := by rw [hs]; rfl
    rw [lastFlush_of_flushing_eq_none hbefore] at hlast
    exact (lastFlush_of_flushing_eq_none rfl).mpr fun r hr => (hlast r hr).mono hg
  | _ => exact hlast.mono hg rfl

/-- A flush that is not the last one is over and stays settled. -/
private theorem past_step {c : ConversationConfig} {s s' : ConversationSystem}
    {e : SystemEvent} (h : Tracked c s) (hstep : s.Transition c e s') (i : Nat) (r : FlushRecord)
    (hr : s'.flushes[i]? = some r) (hi : i + 1 < s'.flushes.length) : Settled c s' r := by
  have hg := grows_step h hstep
  cases hstep with
  | timer e run he hrun =>
    have hbefore := (flushing_of_timer he hrun).1
    have hlast := (lastFlush_of_flushing_eq_none hbefore).mp h.last
    have hlen : (begunFlushes run).length ≤ 1 := by
      unfold begunFlushes
      split <;> simp
    have hflushes : (s.afterTimer run).flushes = s.flushes ++ begunFlushes run := rfl
    rw [hflushes, List.length_append] at hi
    have hlt : i < s.flushes.length := by omega
    rw [hflushes, List.getElem?_append_left hlt] at hr
    -- the flush that was the last one is over when the next begins
    by_cases hend : i + 1 < s.flushes.length
    · exact (h.past i r hr hend).mono hg
    · have hi' : i = s.flushes.length - 1 := by omega
      rw [hi', ← List.getLast?_eq_getElem?] at hr
      exact (hlast r hr).mono hg
  | _ => exact (h.past i r hr hi).mono hg

private theorem tracked_step (c : ConversationConfig) (s : ConversationSystem) (e : SystemEvent)
    (s' : ConversationSystem) (h : Labelled c s ∧ Tracked c s) (hkeeps : KeepsBatch c s e)
    (hstep : s.step c e = some s') : Labelled c s' ∧ Tracked c s' := by
  have ht := transition_of_step hstep
  exact ⟨labelled_step h.1 ht, {
    past := past_step h.2 ht
    last := last_step h.1 h.2 hkeeps ht
    known := known_step h.1 h.2 ht
    reads := readsStaged_step h.1 h.2 hkeeps ht
    stored := stored_step h.2 hkeeps ht }⟩

private theorem tracked_start (c : ConversationConfig) (input : ConversationMemoryInput)
    (runId : RunId) (now : Timestamp) : Tracked c (start input runId now) where
  past := fun _ _ hr => nomatch hr
  last := fun _ hr => nomatch hr
  known := fun _ _ _ _ hmem => absurd hmem List.not_mem_nil
  reads := fun _ _ _ _ hmem => absurd hmem List.not_mem_nil
  stored := fun _ _ _ hmem => absurd hmem List.not_mem_nil

/-! ## Every run -/

private theorem allSettled_of_tracked {c : ConversationConfig} {s : ConversationSystem}
    (h : Tracked c s) : AllSettled c s := by
  intro i r hr hover
  have hlt := (List.getElem?_eq_some_iff.mp hr).1
  by_cases hend : i + 1 < s.flushes.length
  · exact h.past i r hr hend
  · have hi : i + 1 = s.flushes.length := by omega
    have hnone : ConversationRun.flushing s.run.await = none := by
      by_contra hne
      exact hover ⟨hi, hne⟩
    have hlast := (lastFlush_of_flushing_eq_none hnone).mp h.last
    apply hlast
    rw [List.getLast?_eq_getElem?, ← hi]
    exact hr

/-- In every run of the conversation whose events keep the batch under way, every flush that
    is over is settled: a dead-letter row carries its turns, or its dropped turns are audited
    and the others are chunk rows. -/
theorem allSettled_of_keepsBatch (c : ConversationConfig) (input : ConversationMemoryInput)
    (runId : RunId) (now : Timestamp) (es : List SystemEvent) (s : ConversationSystem)
    (hrun : exec (step c) (start input runId now) es = some s)
    (hkeeps : AllSteps (step c) (KeepsBatch c) (start input runId now) es) : AllSettled c s := by
  have hinit := And.intro (labelled_start c input runId now) (tracked_start c input runId now)
  exact allSettled_of_tracked
    (exec_invariant_of_allSteps (tracked_step c) hinit hkeeps hrun).2

theorem allSettled_storedFlush :
    ∃ s, exec (step sampleConfig) (start sampleConversation "run" 0) storedFlush = some s ∧
      s.flushes.length = 1 ∧ AllSettled sampleConfig s :=
  ⟨_, rfl, rfl, allSettled_of_keepsBatch sampleConfig sampleConversation "run" 0 storedFlush _
    rfl (by decide)⟩

/-- The first run stores its flush and ends; the next turn starts the conversation afresh,
    and the fence refuses the stores of its flush, whose results the workflow takes for
    done. -/
def flushOfNextRun : List SystemEvent :=
  firstFlush ++ firstStores ++
    [.workflow .close, .workflow .conditionMet, .workflow (.publishCompletion (.ok ())),
      .nextRun { sampleConversation with tenantId := none } "run2" 20, .workflow .start,
      .workflow (.ensureTenantReady (.ok (some 1))), turnSignal "t2" "there",
      .workflow .conditionMet, .workflow .conditionMet, .redactTurns [] none, .readChunkCount 3,
      .stageChunks 3, .chunkDone 3, .readStaging 4, .commit 4 30, .storeDone 4, .readStaging 5,
      .checkFence 5, .storeDone 5, .workflow (.updateWorkspaceStats (.ok ())), .cleanupStaging]

/-- The batch of the second run is neither stored nor dropped nor dead-lettered. -/
theorem not_allSettled_flushOfNextRun :
    ¬ ∀ (c : ConversationConfig) (input : ConversationMemoryInput) (runId : RunId)
      (now : Timestamp) (es : List SystemEvent) (s : ConversationSystem),
      exec (step c) (start input runId now) es = some s → AllSettled c s := by
  intro h
  have hsettled := h sampleConfig sampleConversation "run" 0 flushOfNextRun _ rfl 1 _ rfl
    fun hunder => hunder.2 rfl
  have hcontents := contents_of_settled hsettled
  revert hcontents
  decide

end ConversationSystem

end Inherent
