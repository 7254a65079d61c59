import Inherent.ForStd.Run
import Inherent.Native.WorkspaceStats
import Inherent.Spec.ConversationWorkflow

/-!
# Which flushes are counted

The ledger admits one increment for each run, so of all flushes of a run only the one that
enters the run in the ledger changes the counters.  The counters agree with the flushes
exactly as long as a flush whose activity returns is that one, or has nothing to count.
-/

namespace Inherent

open EventRun

/-! ## Deltas -/

/-- The three deltas of a call. -/
def UpdateStatsInput.deltas (input : UpdateStatsInput) : Int × Int × Int :=
  (input.documentDelta, input.chunkDelta, input.sizeDelta)

/-- The three counters. -/
def WorkspaceMetadata.counters (m : WorkspaceMetadata) : Int × Int × Int :=
  (m.documentCount, m.chunkCount, m.totalSizeBytes)

/-- The call takes nothing away. -/
structure UpdateStatsInput.Adds (input : UpdateStatsInput) : Prop where
  document : 0 ≤ input.documentDelta
  chunk : 0 ≤ input.chunkDelta
  size : 0 ≤ input.sizeDelta

/-- Then `GREATEST` does nothing. -/
theorem counters_add {input : UpdateStatsInput} (m : WorkspaceMetadata) (h : input.Adds) :
    (m.add input).counters = m.counters + input.deltas := by
  obtain ⟨hdocument, hchunk, hsize⟩ := h
  simp only [WorkspaceMetadata.counters, WorkspaceMetadata.add, UpdateStatsInput.deltas,
    Prod.mk_add_mk, Prod.mk.injEq]
  omega

/-- The deltas of a flush take nothing away. -/
theorem adds_statsInput (s : ConversationRun) (flush : Flush) (chunkCount : Nat)
    (pg wv : StoreDocumentOutput) : (s.statsInput flush chunkCount pg wv).Adds := by
  unfold ConversationRun.statsInput
  constructor
  · dsimp only
    split <;> omega
  · dsimp only
    split <;> omega
  · dsimp only
    split <;> omega

/-- A second call for a run changes nothing. -/
theorem updateWorkspaceStats_of_holds {input : UpdateStatsInput} {t : StatsTables} {r : RunId}
    (hrun : input.workflowRunId = some r) (h : t.ledger.Holds r) :
    updateWorkspaceStats input t = (t, false) := by
  simp only [updateWorkspaceStats, hrun, if_pos h]

/-- The first one is counted. -/
theorem updateWorkspaceStats_of_not_holds {input : UpdateStatsInput} {t : StatsTables} {r : RunId}
    (hrun : input.workflowRunId = some r) (h : ¬ t.ledger.Holds r) :
    (updateWorkspaceStats input t).1.metadata = t.metadata.map (·.add input) ∧
      (updateWorkspaceStats input t).1.ledger.Holds r := by
  simp only [updateWorkspaceStats, hrun, if_neg h, true_and]
  exact UniqueTable.holds_insertNew.mpr (.inr rfl)

/-! ## The calls of a run -/

/-- The run waits for `update_workspace_stats`. -/
def awaitsStats : Await → Bool
  | .updateWorkspaceStats _ => true
  | _ => false

private theorem awaitsStats_of_flushing {await : Await}
    (h : ConversationRun.flushing await = none) : awaitsStats await = false := by
  cases await <;> first | rfl | cases h

private theorem awaitsStats_flush (s : ConversationRun) : awaitsStats s.flush.await = false := by
  rcases s.flush_await with h | h
  · exact awaitsStats_of_flushing h
  · rw [h]
    rfl

private theorem awaitsStats_afterRedact (s : ConversationRun) (turns : List BufferedTurn)
    (result : ActivityResult RedactTurnsOutput) :
    awaitsStats (s.afterRedact turns result).await = false := by
  cases result with
  | failed error => rfl
  | ok output =>
    unfold ConversationRun.afterRedact
    dsimp only
    split
    · exact awaitsStats_of_flushing (ConversationRun.flushing_afterFlush s turns)
    · rfl

private theorem awaitsStats_afterChunk (s : ConversationRun) (flush : Flush)
    (result : ActivityResult Nat) : awaitsStats (s.afterChunk flush result).await = false := by
  rcases s.afterChunk_await flush result with ⟨input, h⟩ | h | ⟨job, h⟩
  · rw [h]
    rfl
  · exact awaitsStats_of_flushing h
  · rw [h]
    rfl

namespace StatsSystem

@[simp] theorem track_tables (s : StatsSystem) (e : WorkflowEvent) :
    (s.track e).tables = s.tables := by
  unfold track
  repeat' split
  all_goals rfl

@[simp] theorem track_attempts (s : StatsSystem) (e : WorkflowEvent) :
    (s.track e).attempts = s.attempts := by
  unfold track
  repeat' split
  all_goals rfl

@[simp] theorem track_countedBy (s : StatsSystem) (e : WorkflowEvent) :
    (s.track e).countedBy = s.countedBy := by
  unfold track
  repeat' split
  all_goals rfl

/-- What an event that resumes the run does with its calls. -/
inductive Move (s : StatsSystem) (e : WorkflowEvent) (run : ConversationRun) : Prop where
  | kept (hawait : awaitsStats run.await = awaitsStats s.run.await)
      (hcalls : (s.track e).calls = s.calls) (hflushed : (s.track e).flushed = s.flushed)
  | scheduled (input : UpdateStatsInput) (hbefore : awaitsStats s.run.await = false)
      (hcalls : (s.track e).calls = s.calls ++ [input])
      (hflushed : (s.track e).flushed = s.flushed)
      (hrun : input.workflowRunId = some s.run.workflowRunId) (hadds : input.Adds)
  | returned (he : e = .updateWorkspaceStats (.ok ())) (hbefore : awaitsStats s.run.await = true)
      (hafter : awaitsStats run.await = false) (hcalls : (s.track e).calls = s.calls)
      (hflushed : (s.track e).flushed = s.flushed ++ s.calls.getLast?.toList)
  | failed (error : String) (he : e = .updateWorkspaceStats (.failed error))
      (hbefore : awaitsStats s.run.await = true) (hafter : awaitsStats run.await = false)
      (hcalls : (s.track e).calls = s.calls) (hflushed : (s.track e).flushed = s.flushed)

/-- An event at another `await` than the store and the stats. -/
private theorem kept_of_await {s : StatsSystem} {e : WorkflowEvent} {run : ConversationRun}
    {await : Await} (hs : s.run.await = await) (hbefore : awaitsStats await = false)
    (hafter : awaitsStats run.await = false) (hcalls : (s.track e).calls = s.calls)
    (hflushed : (s.track e).flushed = s.flushed) : s.Move e run :=
  .kept (hafter.trans (hs ▸ hbefore.symm)) hcalls hflushed

/-- The run waits for the stats once both stores have returned. -/
private theorem awaitsStats_afterStore (s : ConversationRun) (flush : Flush)
    (input : StoreDocumentInput) (pg wv : Option StoreDocumentOutput) (target : StoreTarget)
    (output : StoreDocumentOutput) :
    awaitsStats (s.afterStore flush input pg wv target (.ok output)).await =
      (gathered pg wv target output).isSome := by
  cases target <;> cases pg <;> cases wv <;> rfl

/-- A store returns. -/
private theorem move_store {s : StatsSystem} {flush : Flush} {input : StoreDocumentInput}
    {pg wv : Option StoreDocumentOutput} {target : StoreTarget}
    {result : ActivityResult StoreDocumentOutput} (hs : s.run.await = .store flush input pg wv) :
    s.Move (.store target result) (s.run.afterStore flush input pg wv target result) := by
  have hbefore : awaitsStats s.run.await = false := by rw [hs]; rfl
  cases result with
  | failed error => exact kept_of_await hs rfl rfl rfl rfl
  | ok output =>
    cases hboth : gathered pg wv target output with
    | none =>
      -- the other store is still running
      have htrack : s.track (.store target (.ok output)) = s := by simp only [track, hs, hboth]
      have hafter := awaitsStats_afterStore s.run flush input pg wv target output
      rw [hboth] at hafter
      exact kept_of_await hs rfl hafter (by rw [htrack]) (by rw [htrack])
    | some both =>
      obtain ⟨pg', wv'⟩ := both
      -- both stores have returned, so the stats are called
      have htrack : s.track (.store target (.ok output)) =
          { s with calls := s.calls ++ [s.run.statsInput flush s.chunkCount pg' wv'] } := by
        simp only [track, hs, hboth]
      exact .scheduled _ hbefore (by rw [htrack]) (by rw [htrack]) rfl (adds_statsInput ..)

/-- Every event that resumes the run is one of these moves. -/
theorem move_of_step {s : StatsSystem} {e : WorkflowEvent} {run : ConversationRun}
    (h : s.run.step e = some run) : s.Move e run := by
  cases ConversationRun.transition_of_step h with
  | addTurn => exact .kept rfl rfl rfl
  | close => exact .kept rfl rfl rfl
  | tick => exact .kept rfl rfl rfl
  | start hs =>
    exact kept_of_await hs rfl
      (awaitsStats_of_flushing (ConversationRun.flushing_begin s.run)) rfl rfl
  | idleMet deadline hs =>
    exact kept_of_await hs rfl
      (awaitsStats_of_flushing (ConversationRun.flushing_afterIdle s.run)) rfl rfl
  | debounceMet deadline hs => exact kept_of_await hs rfl (awaitsStats_flush _) rfl rfl
  | debounceTimeout deadline hs =>
    exact kept_of_await hs rfl (awaitsStats_flush _) rfl rfl
  | idleTimeout deadline hs => exact kept_of_await hs rfl rfl rfl rfl
  | tenantReady tenantId hs =>
    exact kept_of_await hs rfl
      (awaitsStats_of_flushing (ConversationRun.flushing_loop _)) rfl rfl
  | tenantFailed error hs => exact kept_of_await hs rfl rfl rfl rfl
  | redacted turns result hs =>
    exact kept_of_await hs rfl (awaitsStats_afterRedact ..) rfl rfl
  | chunked flush result hs =>
    refine kept_of_await hs rfl (awaitsStats_afterChunk ..) ?_ ?_
    · cases result <;> rfl
    · cases result <;> rfl
  | stored flush input pg wv target result hs => exact move_store hs
  | statsUpdated flush result hs =>
    -- the write of the statistics has been awaited
    have hbefore : awaitsStats s.run.await = true := by rw [hs]; rfl
    cases result with
    | ok => exact .returned rfl hbefore rfl rfl rfl
    | failed error => exact .failed error rfl hbefore rfl rfl rfl
  | deadLettered turns job result hs =>
    exact kept_of_await hs rfl
      (awaitsStats_of_flushing (ConversationRun.flushing_afterFlush s.run turns)) rfl rfl
  | cleaned turns result hs =>
    exact kept_of_await hs rfl
      (awaitsStats_of_flushing (ConversationRun.flushing_afterFlush s.run turns)) rfl rfl
  | published result hs => exact kept_of_await hs rfl rfl rfl rfl

/-! ## Counting -/

/-- The deltas of the call with the number `i`. -/
def callDeltas (s : StatsSystem) (i : Nat) : Int × Int × Int :=
  (s.calls[i]?.map UpdateStatsInput.deltas).getD 0

/-- What the flushes that succeeded have to count. -/
def flushedDeltas (s : StatsSystem) : Int × Int × Int :=
  (s.flushed.map UpdateStatsInput.deltas).sum

/-- Between two flushes, the counters have grown by what the flushes that succeeded have to
    count. -/
def AllCounted (s : StatsSystem) (m : WorkspaceMetadata) : Prop :=
  awaitsStats s.run.await = false → ∃ m' ∈ s.tables.metadata,
    m'.counters = m.counters + s.flushedDeltas

/-- A flush with something to count enters the run in the ledger while the run waits for its
    stats, and only then does its activity return; one whose activity fails has not entered
    it. -/
def countsOnce (s : StatsSystem) : StatsEvent → Bool
  | .commit k =>
    match s.attempts[k]? with
    | some a => s.tables.ledger.Holds s.run.workflowRunId || s.callDeltas a.call = 0 ||
        (awaitsStats s.run.await && a.call = s.lastCall)
    | none => true
  | .workflow (.updateWorkspaceStats (.ok _)) =>
    s.callDeltas s.lastCall = 0 || s.countedBy = some s.lastCall
  | .workflow (.updateWorkspaceStats (.failed _)) =>
    s.callDeltas s.lastCall = 0 || s.countedBy ≠ some s.lastCall
  | _ => true

/-- The deltas of the call that entered the run in the ledger. -/
def countedDeltas (s : StatsSystem) : Int × Int × Int := (s.countedBy.map s.callDeltas).getD 0

/-- The run waits for the stats of the call that entered it in the ledger. -/
def CountsNow (s : StatsSystem) : Prop :=
  awaitsStats s.run.await = true ∧ s.countedBy = some s.lastCall

instance (s : StatsSystem) : Decidable s.CountsNow := inferInstanceAs (Decidable (_ ∧ _))

/-- The invariant. -/
structure Accounted (s : StatsSystem) (m : WorkspaceMetadata) : Prop where
  runIds : ∀ input ∈ s.calls, input.workflowRunId = some s.run.workflowRunId
  adds : ∀ input ∈ s.calls, input.Adds
  numbers : ∀ a ∈ s.attempts, a.call < s.calls.length
  counted : ∀ i ∈ s.countedBy, i < s.calls.length
  awaiting : awaitsStats s.run.await = true → s.calls ≠ []
  ledger : s.tables.ledger.Holds s.run.workflowRunId ↔ s.countedBy.isSome = true
  metadata : ∃ m' ∈ s.tables.metadata, m'.counters = m.counters + s.countedDeltas
  flushed : s.flushedDeltas = if s.CountsNow then 0 else s.countedDeltas

/-- What depends on the calls, the ledger and the counters alone is kept with them. -/
private theorem Accounted.of_same {m : WorkspaceMetadata} {s t : StatsSystem} (h : s.Accounted m)
    (hid : t.run.workflowRunId = s.run.workflowRunId) (hcalls : t.calls = s.calls)
    (hnumbers : ∀ a ∈ t.attempts, a.call < s.calls.length) (htables : t.tables = s.tables)
    (hcountedBy : t.countedBy = s.countedBy)
    (hawaiting : awaitsStats t.run.await = true → awaitsStats s.run.await = true)
    (hflushed : t.flushedDeltas = if t.CountsNow then 0 else s.countedDeltas) : t.Accounted m := by
  have hcounted : t.countedDeltas = s.countedDeltas := by
    have hdeltas : t.callDeltas = s.callDeltas := by
      funext i
      rw [callDeltas, callDeltas, hcalls]
    rw [countedDeltas, countedDeltas, hcountedBy, hdeltas]
  refine ⟨?_, ?_, ?_, ?_, ?_, ?_, ?_, ?_⟩
  · rw [hcalls, hid]
    exact h.runIds
  · rw [hcalls]
    exact h.adds
  · rw [hcalls]
    exact hnumbers
  · rw [hcalls, hcountedBy]
    exact h.counted
  · rw [hcalls]
    exact fun hawait => h.awaiting (hawaiting hawait)
  · rw [htables, hid, hcountedBy]
    exact h.ledger
  · rw [htables, hcounted]
    exact h.metadata
  · rw [hcounted]
    exact hflushed

/-- A new call is not the one in the ledger. -/
private theorem accounted_scheduled {m : WorkspaceMetadata} {s t : StatsSystem}
    {input : UpdateStatsInput} (h : s.Accounted m)
    (hid : t.run.workflowRunId = s.run.workflowRunId) (hbefore : awaitsStats s.run.await = false)
    (hcalls : t.calls = s.calls ++ [input]) (hflushed : t.flushed = s.flushed)
    (hattempts : t.attempts = s.attempts) (htables : t.tables = s.tables)
    (hcountedBy : t.countedBy = s.countedBy)
    (hrun : input.workflowRunId = some s.run.workflowRunId) (hadds : input.Adds) :
    t.Accounted m := by
  have hlength : t.calls.length = s.calls.length + 1 := by
    rw [hcalls, List.length_append, List.length_singleton]
  have hdeltas : ∀ i < s.calls.length, t.callDeltas i = s.callDeltas i := by
    intro i hi
    rw [callDeltas, callDeltas, hcalls, List.getElem?_append_left hi]
  -- the deltas of the call in the ledger are still the same
  have hcounted : t.countedDeltas = s.countedDeltas := by
    rw [countedDeltas, countedDeltas, hcountedBy]
    cases hby : s.countedBy with
    | none => rfl
    | some i => exact hdeltas i (h.counted i hby)
  -- the new call is the last one, and the one in the ledger is older
  have hnotNow : ¬ t.CountsNow := by
    rintro ⟨-, hlast⟩
    have hlt := h.counted t.lastCall (hcountedBy ▸ hlast)
    rw [lastCall, hlength] at hlt
    omega
  have hnotBefore : ¬ s.CountsNow := fun hnow => Bool.false_ne_true (hbefore.symm.trans hnow.1)
  refine ⟨?_, ?_, ?_, ?_, ?_, ?_, ?_, ?_⟩
  · rw [hcalls, hid]
    intro i hi
    rcases List.mem_append.mp hi with hi | hi
    · exact h.runIds i hi
    · rw [List.mem_singleton.mp hi]
      exact hrun
  · rw [hcalls]
    intro i hi
    rcases List.mem_append.mp hi with hi | hi
    · exact h.adds i hi
    · rw [List.mem_singleton.mp hi]
      exact hadds
  · rw [hattempts, hlength]
    exact fun a ha => Nat.lt_succ_of_lt (h.numbers a ha)
  · rw [hcountedBy, hlength]
    exact fun i hi => Nat.lt_succ_of_lt (h.counted i hi)
  · rw [hcalls]
    exact fun _ => List.append_ne_nil_of_right_ne_nil _ (List.cons_ne_nil _ _)
  · rw [htables, hid, hcountedBy]
    exact h.ledger
  · rw [htables, hcounted]
    exact h.metadata
  · rw [if_neg hnotNow, hcounted, flushedDeltas, hflushed]
    exact h.flushed.trans (if_neg hnotBefore)

/-- The deltas of the last call. -/
private theorem deltas_getLast? {s : StatsSystem} (hcalls : s.calls ≠ []) :
    (s.calls.getLast?.toList.map UpdateStatsInput.deltas).sum = s.callDeltas s.lastCall := by
  rw [callDeltas, lastCall, ← List.getLast?_eq_getElem?]
  cases hlast : s.calls.getLast? with
  | none => exact absurd (List.getLast?_eq_none_iff.mp hlast) hcalls
  | some input => simp

/-- An event that resumes the run. -/
private theorem accounted_workflow {m : WorkspaceMetadata} {s : StatsSystem} {e : WorkflowEvent}
    {run : ConversationRun} (h : s.Accounted m) (hC : s.countsOnce (.workflow e) = true)
    (hrun : s.run.step e = some run) : Accounted { s.track e with run := run } m := by
  have hid := ConversationRun.workflowRunId_of_step hrun
  have htables := track_tables s e
  have hattempts := track_attempts s e
  have hcountedBy := track_countedBy s e
  have hnumbers : ∀ a ∈ (s.track e).attempts, a.call < s.calls.length := by
    rw [hattempts]
    exact h.numbers
  cases move_of_step hrun with
  | kept hawait hcalls hflushed =>
    refine h.of_same hid hcalls hnumbers htables hcountedBy (fun h => hawait ▸ h) ?_
    rw [flushedDeltas, hflushed]
    -- neither the `await` nor the ledger has changed
    have hnow : CountsNow { s.track e with run := run } ↔ s.CountsNow := by
      rw [CountsNow, CountsNow, hawait, hcountedBy, lastCall, lastCall, hcalls]
    simp only [hnow]
    exact h.flushed
  | scheduled input hbefore hcalls hflushed hinput hadds =>
    exact accounted_scheduled h hid hbefore hcalls hflushed hattempts htables hcountedBy hinput
      hadds
  | returned he hbefore hafter hcalls hflushed =>
    subst he
    refine h.of_same hid hcalls hnumbers htables hcountedBy (fun _ => hbefore) ?_
    have hnot : ¬ CountsNow { s.track (.updateWorkspaceStats (.ok ())) with run := run } :=
      fun hnow => Bool.false_ne_true (hafter.symm.trans hnow.1)
    rw [if_neg hnot, flushedDeltas, hflushed, List.map_append, List.sum_append,
      deltas_getLast? (h.awaiting hbefore)]
    have hbase : (s.flushed.map UpdateStatsInput.deltas).sum =
        if s.CountsNow then 0 else s.countedDeltas := h.flushed
    rw [hbase]
    simp only [countsOnce, Bool.or_eq_true, decide_eq_true_eq] at hC
    by_cases hby : s.countedBy = some s.lastCall
    · -- this flush is the one that is counted
      rw [if_pos ⟨hbefore, hby⟩, countedDeltas, hby]
      simp
    · -- another flush is in the ledger, so this one has nothing to count
      rw [if_neg (fun hnow => hby hnow.2), hC.resolve_right hby, add_zero]
  | failed error he hbefore hafter hcalls hflushed =>
    subst he
    refine h.of_same hid hcalls hnumbers htables hcountedBy (fun _ => hbefore) ?_
    have hnot : ¬ CountsNow { s.track (.updateWorkspaceStats (.failed error)) with run := run } :=
      fun hnow => Bool.false_ne_true (hafter.symm.trans hnow.1)
    rw [if_neg hnot, flushedDeltas, hflushed]
    refine h.flushed.trans ?_
    simp only [countsOnce, Bool.or_eq_true, decide_eq_true_eq] at hC
    by_cases hby : s.countedBy = some s.lastCall
    · -- the flush is in the ledger but fails, so it has nothing to count
      have hzero := hC.resolve_right (fun hne => hne hby)
      rw [if_pos ⟨hbefore, hby⟩, countedDeltas, hby]
      exact hzero.symm
    · rw [if_neg (fun hnow => hby hnow.2)]

/-- The number of an attempt that is over now is one of a call. -/
private theorem numbers_set {m : WorkspaceMetadata} {s : StatsSystem} {k call : Nat}
    (h : s.Accounted m) (ha : s.attempts[k]? = some ⟨call, false⟩) :
    ∀ a ∈ s.attempts.set k ⟨call, true⟩, a.call < s.calls.length := by
  intro a hmem
  rcases List.mem_or_eq_of_mem_set hmem with hmem | heq
  · exact h.numbers a hmem
  · rw [heq]
    exact h.numbers ⟨call, false⟩ (List.mem_of_getElem? ha)

/-- The transaction that enters the run in the ledger. -/
private theorem accounted_counts {m : WorkspaceMetadata} {s : StatsSystem} {k call : Nat}
    {input : UpdateStatsInput} (h : s.Accounted m) (hC : s.countsOnce (.commit k) = true)
    (ha : s.attempts[k]? = some ⟨call, false⟩) (hinput : s.calls[call]? = some input)
    (hholds : ¬ s.tables.ledger.Holds s.run.workflowRunId) :
    Accounted { s with
      attempts := s.attempts.set k ⟨call, true⟩
      tables := (updateWorkspaceStats input s.tables).1
      countedBy := if s.tables.ledger.Holds s.run.workflowRunId then s.countedBy
        else some call } m := by
  have hmem := List.mem_of_getElem? hinput
  obtain ⟨hmetadata, hledger⟩ := updateWorkspaceStats_of_not_holds (h.runIds input hmem) hholds
  have hdeltas : s.callDeltas call = input.deltas := by
    rw [callDeltas, hinput]
    rfl
  -- nothing has been counted before
  have hnone : s.countedBy = none := by
    rw [← Option.not_isSome_iff_eq_none, ← h.ledger]
    exact hholds
  have hzero : s.countedDeltas = 0 := by rw [countedDeltas, hnone]; rfl
  have hflushed : s.flushedDeltas = 0 := by rw [h.flushed, hzero, ite_self]
  rw [if_neg hholds]
  refine ⟨h.runIds, h.adds, numbers_set h ha, ?_, h.awaiting, iff_of_true hledger rfl, ?_, ?_⟩
  · intro i hi
    obtain rfl := Option.some.inj hi
    exact h.numbers ⟨call, false⟩ (List.mem_of_getElem? ha)
  · obtain ⟨m', hm', hcounters⟩ := h.metadata
    refine ⟨m'.add input, ?_, ?_⟩
    · rw [hmetadata, Option.mem_def.mp hm']
      rfl
    · rw [counters_add m' (h.adds input hmem), hcounters, hzero, add_zero, ← hdeltas]
      rfl
  · -- the run is in the ledger now: its flush still waits, or has nothing to count
    show s.flushedDeltas = if _ then 0 else s.callDeltas call
    rw [hflushed]
    split
    · rfl
    · rename_i hnot
      simp only [countsOnce, ha, Bool.or_eq_true, decide_eq_true_eq, Bool.and_eq_true] at hC
      rcases hC with (hheld | hnothing) | ⟨hawait, hlast⟩
      · exact absurd hheld hholds
      · exact hnothing.symm
      · exact absurd ⟨hawait, congrArg some hlast⟩ hnot

/-- A transaction of `update_workspace_stats`. -/
private theorem accounted_commit {m : WorkspaceMetadata} {s s' : StatsSystem} {k : Nat}
    (h : s.Accounted m) (hC : s.countsOnce (.commit k) = true)
    (hstep : s.step (.commit k) = some s') : s'.Accounted m := by
  simp only [step] at hstep
  split at hstep
  · rename_i call ha
    split at hstep
    · rename_i input hinput
      obtain rfl := Option.some.inj hstep
      have hrun := h.runIds input (List.mem_of_getElem? hinput)
      have hnumbers := numbers_set h ha
      by_cases hholds : s.tables.ledger.Holds s.run.workflowRunId
      · -- the run is in the ledger already
        have htables := congrArg Prod.fst (updateWorkspaceStats_of_holds hrun hholds)
        rw [if_pos hholds]
        exact h.of_same rfl rfl hnumbers htables rfl id h.flushed
      · exact accounted_counts h hC ha hinput hholds
    · cases hstep
  · cases hstep

/-- One step. -/
private theorem accounted_step (m : WorkspaceMetadata) (s : StatsSystem) (e : StatsEvent)
    (s' : StatsSystem) (h : s.Accounted m) (hC : s.countsOnce e = true)
    (hstep : s.step e = some s') : s'.Accounted m := by
  cases e with
  | workflow e =>
    simp only [step] at hstep
    split at hstep
    · obtain ⟨run, hrun, rfl⟩ := Option.map_eq_some_iff.mp hstep
      exact accounted_workflow h hC hrun
    · cases hstep
  | startAttempt =>
    simp only [step] at hstep
    split at hstep
    · rename_i flush hs
      obtain rfl := Option.some.inj hstep
      refine h.of_same rfl rfl ?_ rfl rfl id h.flushed
      intro a ha
      rcases List.mem_append.mp ha with ha | ha
      · exact h.numbers a ha
      · -- a run that waits for its stats has called them
        have hlength := List.length_pos_of_ne_nil (h.awaiting (by rw [hs]; rfl))
        rw [List.mem_singleton.mp ha]
        show s.calls.length - 1 < s.calls.length
        omega
    · cases hstep
  | commit k => exact accounted_commit h hC hstep
  | raise k =>
    simp only [step] at hstep
    split at hstep
    · rename_i call ha
      obtain rfl := Option.some.inj hstep
      exact h.of_same rfl rfl (numbers_set h ha) rfl rfl id h.flushed
    · cases hstep

/-- In every run whose steps all count once, the counters agree with the flushes that
    succeeded whenever no flush waits for its stats. -/
theorem allCounted_of_countsOnce (input : ConversationMemoryInput) (workflowRunId : RunId)
    (now : Timestamp) (m : WorkspaceMetadata) (ledger : UniqueTable (id : RunId → RunId))
    (hfresh : ¬ ledger.Holds workflowRunId) (es : List StatsEvent) (s : StatsSystem)
    (hrun : exec step (start input workflowRunId now m ledger) es = some s)
    (hC : AllSteps step (fun s e => s.countsOnce e = true)
      (start input workflowRunId now m ledger) es) : s.AllCounted m := by
  have hstart : (start input workflowRunId now m ledger).Accounted m := by
    refine ⟨nofun, nofun, nofun, nofun, nofun, ?_, ⟨m, rfl, ?_⟩, ?_⟩
    · exact iff_of_false hfresh nofun
    · exact (add_zero _).symm
    · exact (ite_self _).symm
  have h := exec_invariant_of_allSteps (accounted_step m) hstart hC hrun
  intro hawait
  have hnot : ¬ s.CountsNow := fun hnow => Bool.false_ne_true (hawait.symm.trans hnow.1)
  rw [h.flushed, if_neg hnot]
  exact h.metadata

/-- A conversation that flushes every turn. -/
def chattyInput : ConversationMemoryInput where
  workspaceId := "ws"
  externalId := "chat"
  userId := "user"
  tenantId := some 1
  flushCharThreshold := 1

/-- The turn is accepted, flushed and stored. -/
def storedTurn (turnId text : String) (inserted : Bool) : List StatsEvent :=
  [.workflow (.addTurn {
      turnId := turnId
      role := "user"
      text := text
      ts := "t"
      userId := "user" }),
    .workflow .conditionMet, .workflow .conditionMet,
    .workflow (.redactTurns (.ok { redactedTurns := [{
      turnId := turnId
      text := text }] })),
    .workflow (.chunkConversation (.ok 1)),
    .workflow (.store .postgresql (.ok {
      success := true
      chunksStored := 1
      documentRowInserted := inserted })),
    .workflow (.store .weaviate (.ok {
      success := true
      chunksStored := 1 }))]

/-- The attempt with the number `k` commits, and the flush succeeds. -/
def statsUpdated (k : Nat) : List StatsEvent :=
  [.startAttempt, .commit k, .workflow (.updateWorkspaceStats (.ok ())),
    .workflow (.cleanupStaging (.ok ()))]

/-- One flush; its first attempt commits but its answer is lost. -/
def oneFlush : List StatsEvent :=
  [.workflow .start] ++ storedTurn "t1" "hi" true ++ [.startAttempt, .commit 0] ++ statsUpdated 1

theorem allCounted_oneFlush :
    ∃ s, exec step (start chattyInput "run" 0 {} .empty) oneFlush = some s ∧
      s.flushedDeltas = (1, 1, 2) ∧ s.AllCounted {} := by
  obtain ⟨s, hrun⟩ := Option.isSome_iff_exists.mp
    (by decide : (exec step (start chattyInput "run" 0 {} .empty) oneFlush).isSome = true)
  have hflushed : ((exec step (start chattyInput "run" 0 {} .empty) oneFlush).map
      flushedDeltas) = some (1, 1, 2) := by decide
  rw [hrun] at hflushed
  exact ⟨s, hrun, Option.some.inj hflushed,
    allCounted_of_countsOnce _ _ _ _ _ (by decide) _ s hrun (by decide)⟩

/-- Two flushes of one run. -/
def twoFlushes : List StatsEvent :=
  [.workflow .start] ++ storedTurn "t1" "hi" true ++ statsUpdated 0 ++
    storedTurn "t2" "there" false ++ statsUpdated 1

/-- The second one is not counted. -/
theorem not_allCounted_twoFlushes :
    ¬ ∀ (input : ConversationMemoryInput) (workflowRunId : RunId) (now : Timestamp)
      (m : WorkspaceMetadata) (ledger : UniqueTable (id : RunId → RunId)) (es : List StatsEvent)
      (s : StatsSystem), ¬ ledger.Holds workflowRunId →
      exec step (start input workflowRunId now m ledger) es = some s → s.AllCounted m := by
  intro h
  obtain ⟨s, hrun⟩ := Option.isSome_iff_exists.mp
    (by decide : (exec step (start chattyInput "run" 0 {} .empty) twoFlushes).isSome = true)
  have hend : ((exec step (start chattyInput "run" 0 {} .empty) twoFlushes).map fun s =>
      (awaitsStats s.run.await, s.tables.metadata, s.flushedDeltas)) =
        some (false, some ⟨1, 1, 2⟩, (1, 2, 7)) := by decide
  rw [hrun] at hend
  simp only [Option.map_some, Option.some.injEq, Prod.mk.injEq] at hend
  obtain ⟨hawait, hmetadata, hflushed⟩ := hend
  obtain ⟨m', hm', hcounters⟩ := h _ _ _ _ _ _ s (by decide) hrun hawait
  rw [hmetadata, Option.mem_some] at hm'
  rw [hflushed, ← hm'] at hcounters
  revert hcounters
  decide

end StatsSystem

end Inherent
