import Inherent.Spec.DocumentIngestion

/-!
# No ghost documents

The commit of `store_in_postgresql` sets the status to `processed` by itself, so a document
is whole only as long as the Weaviate store of the run is made too or the run takes the
status back.  A run that has ended leaves no document that is processed in PostgreSQL and
incomplete in Weaviate when its late attempts neither commit after the store phase nor
delete what another attempt has stored, and its `failed` write goes through.
-/

namespace Inherent

open EventRun

namespace IngestionSystem

/-- The row is `processed` by this run: its store has committed, and the run still owns the
    row. -/
def ProcessedByRun (s : IngestionSystem) : Prop :=
  s.Stored .postgresql ∧ ∃ d ∈ s.doc, d.row.status = .processed ∧
    d.row.activeRunId = some s.input.workflowRunId

instance (s : IngestionSystem) : Decidable s.ProcessedByRun := by
  unfold ProcessedByRun
  cases hdoc : s.doc with
  | none => exact isFalse (by simp)
  | some d =>
    exact decidable_of_iff (s.Stored .postgresql ∧ d.row.status = .processed ∧
      d.row.activeRunId = some s.input.workflowRunId) (by simp)

/-- The run has ended. -/
def Ended (s : IngestionSystem) : Prop := ∃ error, s.await = .ended error

/-- A document that the run has left processed has all of the chunks in both stores. -/
def NoGhost (chunks : List StagedChunk) (s : IngestionSystem) : Prop :=
  s.Ended → s.ProcessedByRun → HoldsChunks s.doc chunks ∧ HoldsObjects s.objects chunks

/-- The workflow is at `asyncio.gather`. -/
def inGather : IngestionAwait → Bool
  | .store _ _ => true
  | _ => false

/-- What keeps the run from leaving a ghost:
    * a PostgreSQL attempt that passes the fence commits during `asyncio.gather`, or after
      the Weaviate store has been made;
    * `set_document_status` does not fail for good while the row is processed by the run and
      the Weaviate store has not been made;
    * no Weaviate attempt deletes the objects after another one has made the store. -/
def KeepsWhole (s : IngestionSystem) : IngestionEvent → Prop
  | .commit _ _ => isActiveRun s.input.workflowRunId s.doc →
      inGather s.await = true ∨ s.Stored .weaviate
  | .statusFailed _ => s.ProcessedByRun → s.Stored .weaviate
  | .deleteObjects _ deleted => deleted = true → ¬ s.Stored .weaviate
  | _ => True

instance (s : IngestionSystem) (e : IngestionEvent) : Decidable (s.KeepsWhole e) := by
  unfold KeepsWhole
  split <;> infer_instance

/-! ## The row -/

/-- If the row is processed by the run, the Weaviate store has been made. -/
def Quiet (s : IngestionSystem) : Prop := s.ProcessedByRun → s.Stored .weaviate

/-- A row that the run owns after the claim of another run is the row before it. -/
private theorem owned_of_claim {call : PendingCall} {doc : Option Document} {d : Document}
    {runId : RunId} (hne : call.workflowRunId ≠ runId)
    (hd : d ∈ (createPendingDocument call doc).1) (howner : d.row.activeRunId = some runId) :
    d ∈ doc := by
  have hclaim : ∀ row : ProcessedDocument, (call.claim row).activeRunId = some runId →
      call.claim row = row := by
    intro row hrow
    unfold PendingCall.claim at hrow ⊢
    split at hrow
    · exact absurd (Option.some.inj hrow) hne
    · rename_i hlate
      rw [if_neg hlate]
  cases doc with
  | none =>
    obtain rfl := Option.some.inj hd
    have hrow := hclaim call.insertValues howner
    rw [hrow] at howner
    exact absurd (Option.some.inj howner) hne
  | some d' =>
    obtain rfl := Option.some.inj hd
    rw [hclaim d'.row howner]
    rfl

/-- A status write of the run leaves the row not processed, or finds it owned by another. -/
private theorem not_processed_of_status {call : StatusCall} {doc : Option Document} {d : Document}
    {runId : RunId} (hcall : call.workflowRunId = some runId) (hstatus : call.status ≠ .processed)
    (hd : d ∈ (updateDocumentStatus call doc).1) (howner : d.row.activeRunId = some runId) :
    d.row.status ≠ .processed := by
  cases doc with
  | none => exact nomatch hd
  | some d' =>
    by_cases h : isActiveRun runId (some d')
    · rw [updateDocumentStatus_of_isActiveRun call runId d' hcall h] at hd
      obtain rfl := Option.some.inj hd
      exact hstatus
    · rw [updateDocumentStatus_of_not_isActiveRun call runId (some d') hcall h] at hd
      obtain rfl := Option.some.inj hd
      exact absurd (Or.inr howner) (fun hp => h ((isActiveRun_some runId d').mpr hp))

/-- The status writes of the run are `processing` and `failed`. -/
def StatusWrites (s : IngestionSystem) : Prop :=
  ∀ status error written, .status status error written ∈ s.attempts → status ≠ .processed

/-- Once it holds, the row stays quiet: only a commit makes it processed, and one after
    `asyncio.gather` finds the Weaviate store made. -/
private theorem quiet_step {s s' : IngestionSystem} {e : IngestionEvent} (h : s.Quiet)
    (hstatus : s.StatusWrites) (hgather : inGather s.await = false) (hkeeps : s.KeepsWhole e)
    (hstep : s.Transition e s') : s'.Quiet := by
  rintro ⟨hpg, d, hd, hprocessed, howner⟩
  have hstored : s'.Stored .postgresql ↔ _ := stored_step hstep
  -- an event that is no commit finds the PostgreSQL store made, and the row as it was
  have hold : (∀ k now, e ≠ .commit k now) → d ∈ s.doc →
      d.row.activeRunId = some s.input.workflowRunId → s'.Stored .weaviate := by
    intro hne hd howner
    rcases hstored.mp hpg with hpg | ⟨-, k, now, chunks, rfl, -⟩ | ⟨ht, -⟩
    · exact (h ⟨hpg, d, hd, hprocessed, howner⟩).step hstep
    · exact absurd rfl (hne k now)
    · exact nomatch ht
  cases hstep with
  | committed k now chunks ha =>
    by_cases hactive : isActiveRun s.input.workflowRunId s.doc
    · have hwv := (hkeeps hactive).resolve_left (by rw [hgather]; exact Bool.false_ne_true)
      exact hwv.step (.committed k now chunks ha)
    · -- a refused commit leaves the row to its owner
      have hdoc := storeInPostgresql_of_not_isActiveRun s.input now chunks s.doc hactive
      simp only [hdoc] at hd
      have hpermits : isActiveRun s.input.workflowRunId s.doc := by
        intro d' hd'
        obtain rfl := Option.mem_unique hd hd'
        exact Or.inr howner
      exact absurd hpermits hactive
  | statusWritten k status errorMessage call ha hcalled hcall =>
    have hne := hstatus status errorMessage false (List.mem_of_getElem? ha)
    exact absurd hprocessed
      (not_processed_of_status hcall (by rw [hcalled]; exact hne) hd howner)
  | claimed c hc => exact hold (fun _ _ => nofun) (owned_of_claim hc hd howner) howner
  | resumed e await he =>
    rw [goTo_doc] at hd
    rw [goTo_input] at howner
    exact hold (by cases he <;> exact fun _ _ => nofun) hd howner
  | _ => exact hold (fun _ _ => nofun) hd howner

@[simp] theorem quiet_goTo {s : IngestionSystem} {await : IngestionAwait} :
    (s.goTo await).Quiet ↔ s.Quiet := by
  simp only [Quiet, ProcessedByRun, stored_goTo, goTo_doc, goTo_input]

/-! ## What holds along a run -/

/-- What is known when the run is at the `await`. -/
def AtPoint (s : IngestionSystem) : IngestionAwait → Prop
  | .store _ wv => ∀ output ∈ wv, output.success = true → s.Stored .weaviate
  | .setFailed _ => True
  | _ => s.Quiet

/-- Every attempt works on the run's chunks, what a store has made is there, and the row is
    quiet from the `failed` write on, or once both stores have been made. -/
structure Tracked (batch : StagedBatch) (s : IngestionSystem) : Prop where
  append : s.input.append = false
  staging : ∀ staged ∈ s.staging, staged = batch.chunks
  reads : ∀ target phase, .store target phase ∈ s.attempts →
    ∀ staged ∈ phase.chunks?, staged = batch.chunks
  rows : s.Stored .postgresql → HoldsChunks s.doc batch.chunks
  objects : s.Stored .weaviate → HoldsObjects s.objects batch.chunks
  statuses : s.StatusWrites
  failed : ∀ error written, .status .failed error written ∈ s.attempts →
    inGather s.await = false ∧ (written = true → s.Quiet)
  point : s.AtPoint s.await

/-- The calls after the stores that only warn follow one another, past `asyncio.gather`. -/
private theorem afterBestEffort_cases {await next : IngestionAwait}
    (h : await.afterBestEffort = some next) :
    inGather next = false ∧ ∀ s : IngestionSystem, s.AtPoint await → s.AtPoint next := by
  unfold IngestionAwait.afterBestEffort at h
  split at h
  · obtain rfl := Option.some.inj h
    exact ⟨rfl, fun _ => id⟩
  · obtain rfl := Option.some.inj h
    exact ⟨rfl, fun _ => id⟩
  · obtain rfl := Option.some.inj h
    exact ⟨rfl, fun _ => id⟩
  · obtain rfl := Option.some.inj h
    exact ⟨rfl, fun _ => id⟩
  · cases h

/-- The workflow does not return to `asyncio.gather`. -/
private theorem inGather_step {s s' : IngestionSystem} {e : IngestionEvent}
    (h : inGather s.await = false) (hstep : s.Transition e s') : inGather s'.await = false := by
  cases hstep with
  | resumed e await he =>
    rw [goTo_await]
    cases he with
    | storeDone k target output pg wv ha hs =>
      rw [hs] at h
      exact nomatch h
    | storeFailed target error pg wv hs => rfl
    | statusDone k errorMessage error ha hs => rfl
    | statusFailed err error hs => rfl
    | statsUpdated result hs => cases result <;> rfl
    | bestEffort result await hs => exact (afterBestEffort_cases hs).1
  | _ => exact h

/-- Nothing but the `await` and the status attempts differs after `goTo`. -/
private theorem mem_attempts_goTo {s : IngestionSystem} {await : IngestionAwait}
    {attempt : IngestionAttempt} (h : attempt ∈ (s.goTo await).attempts) :
    attempt ∈ s.attempts ∨
      ∃ error, await = .setFailed error ∧ attempt = .status .failed (some error) false := by
  rcases s.goTo_attempts await with heq | ⟨error, hawait, heq⟩
  · exact Or.inl (heq ▸ h)
  · rw [heq] at h
    exact (List.mem_append.mp h).imp_right fun h => ⟨error, hawait, List.mem_singleton.mp h⟩

/-- An attempt of a status write was there before, has just written, or is new. -/
private theorem status_of_mem {s s' : IngestionSystem} {e : IngestionEvent}
    {status : DocumentStatus} {error : Option String} {written : Bool}
    (hstep : s.Transition e s') (h : .status status error written ∈ s'.attempts) :
    .status status error written ∈ s.attempts ∨
      (written = true ∧ .status status error false ∈ s.attempts ∧
        ∃ call : StatusCall, s'.doc = (updateDocumentStatus call s.doc).1 ∧
          call.status = status ∧ call.workflowRunId = some s'.input.workflowRunId) ∨
      (written = false ∧ ∃ error', s'.await = .setFailed error' ∧ status = .failed) ∨
      (written = false ∧ s'.await = s.await ∧ ∃ b, .status status error b ∈ s.attempts) := by
  cases hstep with
  | stagingRead k target phase ha hphase =>
    exact Or.inl ((List.mem_or_eq_of_mem_set h).resolve_right nofun)
  | fenceChecked k chunks phase ha hphase =>
    exact Or.inl ((List.mem_or_eq_of_mem_set h).resolve_right nofun)
  | objectsDeleted k deleted chunks ha =>
    exact Or.inl ((List.mem_or_eq_of_mem_set h).resolve_right nofun)
  | objectsWritten k now landed chunks ha =>
    exact Or.inl ((List.mem_or_eq_of_mem_set h).resolve_right nofun)
  | committed k now chunks ha =>
    exact Or.inl ((List.mem_or_eq_of_mem_set h).resolve_right nofun)
  | statusWritten k status' error' call ha hstatus hcall =>
    rcases List.mem_or_eq_of_mem_set h with h | heq
    · exact Or.inl h
    · -- the attempt is the one that has written
      obtain ⟨rfl, rfl, rfl⟩ := IngestionAttempt.status.inj heq
      exact Or.inr (Or.inl ⟨rfl, List.mem_of_getElem? ha, call, rfl, hstatus, hcall⟩)
  | retried k attempt ha =>
    rcases List.mem_append.mp h with h | h
    · exact Or.inl h
    · have heq := List.mem_singleton.mp h
      cases attempt with
      | store target phase => exact nomatch heq
      | status status' error' b =>
        obtain ⟨rfl, rfl, rfl⟩ := IngestionAttempt.status.inj heq
        exact Or.inr (Or.inr (Or.inr ⟨rfl, rfl, b, List.mem_of_getElem? ha⟩))
  | resumed e await he =>
    rcases mem_attempts_goTo h with h | ⟨error', rfl, heq⟩
    · exact Or.inl h
    · obtain ⟨rfl, -, rfl⟩ := IngestionAttempt.status.inj heq
      exact Or.inr (Or.inr (Or.inl ⟨rfl, error', rfl, rfl⟩))
  | stagingDeleted => exact Or.inl h
  | claimed c hc => exact Or.inl h

private theorem statuses_step {s s' : IngestionSystem} {e : IngestionEvent}
    (h : s.StatusWrites) (hstep : s.Transition e s') : s'.StatusWrites := by
  intro status error written hmem
  rcases status_of_mem hstep hmem with hmem | ⟨-, hmem, -⟩ | ⟨-, error', -, rfl⟩ | ⟨-, -, b, hmem⟩
  · exact h _ _ _ hmem
  · exact h _ _ _ hmem
  · exact nofun
  · exact h _ _ _ hmem

private theorem failed_step {batch : StagedBatch} {s s' : IngestionSystem} {e : IngestionEvent}
    (h : Tracked batch s) (hkeeps : s.KeepsWhole e) (hstep : s.Transition e s')
    (error : Option String) (written : Bool)
    (hmem : .status .failed error written ∈ s'.attempts) :
    inGather s'.await = false ∧ (written = true → s'.Quiet) := by
  rcases status_of_mem hstep hmem with
    hmem | ⟨-, hmem, call, hdoc, hstatus, hcall⟩ | ⟨rfl, error', hawait, -⟩ |
      ⟨rfl, hawait, b, hmem⟩
  · obtain ⟨hgather, hquiet⟩ := h.failed error written hmem
    exact ⟨inGather_step hgather hstep, fun hw =>
      quiet_step (hquiet hw) h.statuses hgather hkeeps hstep⟩
  · obtain ⟨hgather, -⟩ := h.failed error false hmem
    refine ⟨inGather_step hgather hstep, fun _ => ?_⟩
    -- the write has just taken the status back
    rintro ⟨-, d, hd, hprocessed, howner⟩
    rw [hdoc] at hd
    exact absurd hprocessed
      (not_processed_of_status hcall (by rw [hstatus]; exact nofun) hd howner)
  · exact ⟨by rw [hawait]; rfl, nofun⟩
  · exact ⟨by rw [hawait]; exact (h.failed error b hmem).1, nofun⟩

private theorem reads_step {batch : StagedBatch} {s s' : IngestionSystem} {e : IngestionEvent}
    (h : Tracked batch s) (hstep : s.Transition e s') (target : StoreTarget)
    (phase : ReplacePhase) (hmem : .store target phase ∈ s'.attempts)
    (staged : List StagedChunk) (hstaged : staged ∈ phase.chunks?) : staged = batch.chunks := by
  have hold : .store target phase ∈ s.attempts → staged = batch.chunks :=
    fun hmem => h.reads target phase hmem staged hstaged
  -- an attempt that goes on keeps the chunks that it has read
  have hset : ∀ k t p p', s.attempts[k]? = some (.store t p) →
      (∀ staged ∈ p'.chunks?, staged = batch.chunks) →
      .store target phase ∈ s.attempts.set k (.store t p') → staged = batch.chunks := by
    intro k t p p' ha hp' hmem
    rcases List.mem_or_eq_of_mem_set hmem with hmem | heq
    · exact hold hmem
    · obtain ⟨rfl, rfl⟩ := IngestionAttempt.store.inj heq
      exact hp' staged hstaged
  cases hstep with
  | stagingRead k t p ha hphase =>
    refine hset k t _ p ha ?_ hmem
    rcases hphase with rfl | ⟨chunks, hrow, rfl⟩
    · exact nofun
    · rintro _ ⟨⟩
      exact h.staging chunks hrow
  | fenceChecked k chunks p ha hphase =>
    refine hset k .weaviate _ p ha ?_ hmem
    rcases hphase with rfl | rfl
    · exact fun _ h' => h.reads _ _ (List.mem_of_getElem? ha) _ h'
    · exact nofun
  | objectsDeleted k deleted chunks ha =>
    refine hset k .weaviate _ (.deleted chunks) ha ?_ hmem
    exact h.reads _ (.permitted chunks) (List.mem_of_getElem? ha)
  | objectsWritten k now landed chunks ha =>
    refine hset k .weaviate _ _ ha ?_ hmem
    intro chunks' h'
    split at h' <;> exact nomatch h'
  | committed k now chunks ha =>
    refine hset k .postgresql _ (.finished _) ha ?_ hmem
    exact nofun
  | statusWritten k status error call ha hstatus hcall =>
    exact hold ((List.mem_or_eq_of_mem_set hmem).resolve_right nofun)
  | retried k attempt ha =>
    rcases List.mem_append.mp hmem with hmem | hmem
    · exact hold hmem
    · have heq := List.mem_singleton.mp hmem
      cases attempt with
      | store t p =>
        obtain ⟨rfl, rfl⟩ := IngestionAttempt.store.inj heq
        exact nomatch hstaged
      | status status error b => exact nomatch heq
  | resumed e await he =>
    rcases mem_attempts_goTo hmem with hmem | ⟨error, -, heq⟩
    · exact hold hmem
    · exact nomatch heq
  | stagingDeleted => exact hold hmem
  | claimed c hc => exact hold hmem

/-- The rows of a made store stay: this run only writes them over with the same chunks. -/
private theorem rows_step {batch : StagedBatch} {s s' : IngestionSystem} {e : IngestionEvent}
    (h : Tracked batch s) (hstep : s.Transition e s') (hstored : s'.Stored .postgresql) :
    HoldsChunks s'.doc batch.chunks := by
  have hold := (stored_step hstep).mp hstored
  have hrows : (∀ k now, e ≠ .commit k now) → HoldsChunks s.doc batch.chunks := by
    intro hne
    rcases hold with hpg | ⟨-, k, now, chunks, rfl, -⟩ | ⟨ht, -⟩
    · exact h.rows hpg
    · exact absurd rfl (hne k now)
    · exact nomatch ht
  cases hstep with
  | committed k now chunks ha =>
    obtain rfl := h.reads _ _ (List.mem_of_getElem? ha) chunks rfl
    by_cases hactive : isActiveRun s.input.workflowRunId s.doc
    · exact (holdsExactly_replace _ now h.append hactive batch.indices).holdsChunks
    · have hdoc := storeInPostgresql_of_not_isActiveRun s.input now batch.chunks s.doc hactive
      rcases hold with hpg | ⟨-, k', now', chunks', he, -, hsuccess⟩ | ⟨ht, -⟩
      · simp only [hdoc]
        exact h.rows hpg
      · rw [storeInPostgresql_of_not_isActiveRun s.input now' chunks' s.doc hactive] at hsuccess
        exact nomatch hsuccess
      · exact nomatch ht
  | statusWritten k status errorMessage call ha hstatus hcall =>
    refine (hrows fun _ _ => nofun).mono fun row hrow => ?_
    rwa [chunkRows_updateDocumentStatus]
  | claimed c hc =>
    refine (hrows fun _ _ => nofun).mono fun row hrow => ?_
    rwa [chunkRows_createPendingDocument]
  | resumed e await he =>
    rw [goTo_doc]
    exact hrows (by cases he <;> exact fun _ _ => nofun)
  | _ => exact hrows fun _ _ => nofun

/-- The objects of a made store stay as long as no later attempt deletes them. -/
private theorem objects_step {batch : StagedBatch} {s s' : IngestionSystem} {e : IngestionEvent}
    (h : Tracked batch s) (hkeeps : s.KeepsWhole e) (hstep : s.Transition e s')
    (hstored : s'.Stored .weaviate) : HoldsObjects s'.objects batch.chunks := by
  have hold := (stored_step hstep).mp hstored
  have hobjects : (∀ k now landed, e ≠ .writeObjects k now landed) →
      s.Stored .weaviate := by
    intro hne
    rcases hold with hwv | ⟨ht, -⟩ | ⟨-, k, now, landed, chunks, rfl, -⟩
    · exact hwv
    · exact nomatch ht
    · exact absurd rfl (hne k now landed)
  cases hstep with
  | objectsDeleted k deleted chunks ha =>
    have hwv := hobjects fun _ _ _ => nofun
    cases deleted with
    | false => exact h.objects hwv
    | true => exact absurd hwv (hkeeps rfl)
  | objectsWritten k now landed chunks ha =>
    obtain rfl := h.reads _ _ (List.mem_of_getElem? ha) chunks rfl
    rcases hold with hwv | ⟨ht, -⟩ | ⟨-, k', now', landed', chunks', he, ha', hall⟩
    · exact (h.objects hwv).storeChunks s.input now landed
    · exact nomatch ht
    · obtain ⟨rfl, rfl, rfl⟩ := IngestionEvent.writeObjects.inj he
      rw [ha] at ha'
      obtain ⟨-, hphase⟩ := IngestionAttempt.store.inj (Option.some.inj ha')
      obtain rfl := ReplacePhase.deleted.inj hphase
      exact holdsObjects_of_stored hall
  | resumed e await he =>
    rw [goTo_objects]
    exact h.objects (hobjects (by cases he <;> exact fun _ _ _ => nofun))
  | _ => exact h.objects (hobjects fun _ _ _ => nofun)

/-- The code after both stores goes on to the statistics only with both made. -/
private theorem atPoint_afterStore {s : IngestionSystem} {pg wv : Option StoreDocumentOutput}
    {target : StoreTarget} {output : StoreDocumentOutput} (h : s.AtPoint (.store pg wv))
    (houtput : target = .weaviate → output.success = true → s.Stored .weaviate) :
    s.AtPoint (.afterStore pg wv target (.ok output)) := by
  have hwv : ∀ o ∈ (if target = .weaviate then some output else wv), o.success = true →
      s.Stored .weaviate := by
    intro o ho
    by_cases ht : target = .weaviate
    · rw [if_pos ht] at ho
      obtain rfl := Option.some.inj ho
      exact houtput ht
    · rw [if_neg ht] at ho
      exact h o ho
  simp only [IngestionAwait.afterStore]
  split
  · rename_i pg' wv' _ hwv'
    unfold IngestionAwait.afterGather
    split
    · trivial
    · split
      · trivial
      · rename_i hsuccess
        intro _
        exact hwv wv' hwv' (by simpa using hsuccess)
  · exact hwv

private theorem point_step {batch : StagedBatch} {s s' : IngestionSystem} {e : IngestionEvent}
    (h : Tracked batch s) (hkeeps : s.KeepsWhole e) (hstep : s.Transition e s') :
    s'.AtPoint s'.await := by
  -- what was known at the `await` is still known
  have hstay : s'.AtPoint s.await := by
    have hpoint := h.point
    have hquiet : inGather s.await = false → s.Quiet → s'.Quiet := fun hgather hq =>
      quiet_step hq h.statuses hgather hkeeps hstep
    cases hs : s.await with
    | store pg wv =>
      rw [hs] at hpoint
      exact fun output ho hsuccess => (hpoint output ho hsuccess).step hstep
    | setFailed error => trivial
    | _ =>
      rw [hs] at hpoint hquiet
      exact hquiet rfl hpoint
  cases hstep with
  | resumed e await he =>
    have hpoint := h.point
    rw [goTo_await]
    cases he with
    | storeDone k target output pg wv ha hs =>
      rw [hs] at hstay
      refine atPoint_afterStore hstay fun ht hsuccess => ?_
      rw [stored_goTo]
      refine ⟨_, List.mem_of_getElem? ha, ?_⟩
      simp only [IngestionAttempt.hasStored, ht, hsuccess, decide_true, Bool.and_true]
    | statusDone k errorMessage error ha hs =>
      exact quiet_goTo.mpr ((h.failed errorMessage true (List.mem_of_getElem? ha)).2 rfl)
    | storeFailed target error pg wv hs => trivial
    | statusFailed err error hs => exact quiet_goTo.mpr hkeeps
    | statsUpdated result hs =>
      rw [hs] at hstay
      cases result with
      | ok _ => exact hstay
      | failed error => trivial
    | bestEffort result await hs => exact (afterBestEffort_cases hs).2 _ hstay
  | _ => exact hstay

private theorem tracked_step (batch : StagedBatch) (s : IngestionSystem) (e : IngestionEvent)
    (s' : IngestionSystem) (h : Tracked batch s) (hkeeps : s.KeepsWhole e)
    (hstep : s.step e = some s') : Tracked batch s' := by
  have ht := transition_of_step hstep
  exact {
    append := by cases ht <;> first | exact h.append | (rw [goTo_input]; exact h.append)
    staging := by
      cases ht <;> first | exact h.staging | (rw [goTo_staging]; exact h.staging) | exact nofun
    reads := reads_step h ht
    rows := rows_step h ht
    objects := objects_step h hkeeps ht
    statuses := statuses_step h.statuses ht
    failed := failed_step h hkeeps ht
    point := point_step h hkeeps ht }

private theorem tracked_start (input : DocumentIngestionInput) (l : IngestionLocals)
    (batch : StagedBatch) (doc : Option Document) (objects : ObjectTable) :
    Tracked batch (start input l batch.chunks doc objects) where
  append := rfl
  staging := by
    rintro _ ⟨⟩
    rfl
  reads := by
    intro target phase hmem staged hstaged
    simp only [start, List.mem_cons, reduceCtorEq, IngestionAttempt.store.injEq, List.not_mem_nil,
      or_false, false_or] at hmem
    rcases hmem with ⟨-, rfl⟩ | ⟨-, rfl⟩ <;> exact nomatch hstaged
  rows := by
    rintro ⟨a, ha, hstored⟩
    simp only [start, List.mem_cons, List.not_mem_nil, or_false] at ha
    rcases ha with rfl | rfl | rfl <;> exact nomatch hstored
  objects := by
    rintro ⟨a, ha, hstored⟩
    simp only [start, List.mem_cons, List.not_mem_nil, or_false] at ha
    rcases ha with rfl | rfl | rfl <;> exact nomatch hstored
  statuses := by
    intro status error written hmem
    simp only [start, List.mem_cons, reduceCtorEq, IngestionAttempt.status.injEq,
      List.not_mem_nil, or_false] at hmem
    rw [hmem.1]
    exact nofun
  failed := by
    intro error written hmem
    simp [start] at hmem
  point := fun _ ho => nomatch ho

/-! ## Every run -/

/-- In every run of the store phase whose events keep the document whole, a run that has
    ended has left no document that is processed in PostgreSQL and not complete in both
    stores. -/
theorem noGhost_of_keepsWhole (input : DocumentIngestionInput) (l : IngestionLocals)
    (batch : StagedBatch) (doc : Option Document) (objects : ObjectTable)
    (es : List IngestionEvent) (s : IngestionSystem)
    (hrun : exec step (start input l batch.chunks doc objects) es = some s)
    (hkeeps : AllSteps step KeepsWhole (start input l batch.chunks doc objects) es) :
    NoGhost batch.chunks s := by
  have h := exec_invariant_of_allSteps (tracked_step batch)
    (tracked_start input l batch doc objects) hkeeps hrun
  rintro ⟨error, hend⟩ hprocessed
  have hquiet := h.point
  rw [hend] at hquiet
  exact ⟨h.rows hprocessed.1, h.objects (hquiet hprocessed)⟩

/-- A document of one chunk. -/
def sampleInput : DocumentIngestionInput where
  documentId := "doc"
  workspaceId := "ws"
  userId := "user"
  filename := "a.txt"
  originalFilename := "a.txt"
  contentType := "text/plain"
  sizeBytes := 5
  storageBackend := "local"
  storagePath := "ws/a.txt"

/-- The run's other arguments of the stores. -/
def sampleLocals : IngestionLocals where
  workflowRunId := "run"
  tenantId := some 1
  textLength := 5
  processingTimeMs := 0

/-- Its chunk. -/
def sampleBatch : StagedBatch where
  chunks := [{ documentId := "doc", content := "hello", chunkIndex := 0, startChar := 0,
               endChar := 5, contentRisk := "none", chunkingStrategy := "sentences" }]
  indices := List.nodup_singleton 0

/-- The row as `create_pending_document` of the run left it. -/
def sampleRow : Option Document :=
  (createPendingDocument {
    now := 1
    documentId := "doc"
    workspaceId := "ws"
    userId := "user"
    filename := "a.txt"
    originalFilename := "a.txt"
    contentType := "text/plain"
    sizeBytes := 5
    storageBackend := "local"
    storagePath := "ws/a.txt"
    workflowRunId := "run"
    workflowStartTime := 1 } none).1

/-- Both stores are made: attempt 1 is PostgreSQL's and attempt 2 Weaviate's. -/
def bothStores : List IngestionEvent :=
  [.readStaging 1, .readStaging 2, .checkFence 2, .commit 1 10, .done 1, .deleteObjects 2 true,
    .writeObjects 2 11 [true], .done 2, .updateWorkspaceStats (.ok ()), .bestEffort (.ok ()),
    .bestEffort (.ok ()), .bestEffort (.ok ())]

theorem noGhost_bothStores :
    ∃ s, exec step (start sampleInput sampleLocals sampleBatch.chunks sampleRow .empty)
        bothStores = some s ∧
      s.ProcessedByRun ∧ NoGhost sampleBatch.chunks s :=
  ⟨_, rfl, by decide, noGhost_of_keepsWhole sampleInput sampleLocals sampleBatch sampleRow .empty
    bothStores _ rfl (by decide)⟩

/-- The Weaviate store fails for good while the PostgreSQL attempt has read its chunks; the
    status is `failed` and the run has ended when the attempt commits. -/
def commitAfterFailure : List IngestionEvent :=
  [.readStaging 1, .storeFailed .weaviate "Activity task failed", .writeStatus 3 12, .done 3,
    .bestEffort (.ok ()), .bestEffort (.ok ()), .bestEffort (.ok ()), .deleteStaging, .commit 1 15]

/-- The late commit leaves the document processed without an object in Weaviate. -/
theorem not_noGhost_commitAfterFailure :
    ¬ ∀ (input : DocumentIngestionInput) (l : IngestionLocals) (batch : StagedBatch)
      (doc : Option Document) (objects : ObjectTable) (es : List IngestionEvent)
      (s : IngestionSystem),
      exec step (start input l batch.chunks doc objects) es = some s → NoGhost batch.chunks s := by
  intro h
  have hrun := h sampleInput sampleLocals sampleBatch sampleRow .empty commitAfterFailure _ rfl
  have hobjects := (hrun ⟨_, rfl⟩ (by decide)).2
  revert hobjects
  decide

end IngestionSystem

end Inherent
