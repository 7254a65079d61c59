import Inherent.Spec.RedisMq

/-!
# Redelivery at run time

An iteration of `_poll_loop` reaches `_reclaim_pending` only after a batch of new entries, so
on a stream without new traffic a message whose handler failed once is not tried again.  An
entry that is due at the start of an iteration is dispatched again or dropped in it exactly
when every step keeps it coming.
-/

namespace Inherent

open EventRun

namespace RedisConsumer

/-- The entries that are pending and idle for `_reclaim_min_idle_ms`, up to the claim batch. -/
def dueBatch (mq : RedisMqService) (s : RedisConsumer) : List Nat :=
  (s.group.idle s.now mq.reclaimMinIdleMs).take 20

/-- The entries that the event dispatches again or drops. -/
def redelivered (mq : RedisMqService) (s : RedisConsumer) : RedisEvent → List Nat
  | .reclaimNext result =>
    match s.await with
    | .reclaiming (id :: _) =>
      if s.fields id ≠ [] ∧ s.deliveryCount id result ≤ mq.maxDeliveries ∧
          mq.parses (s.fields id) then [id]
      else []
    | _ => []
  | .drop result =>
    match s.await with
    | .drop id _ => if result.executed then [id] else []
    | _ => []
  | _ => []

/-- An event of an iteration other than its read: the process goes on and no call fails. -/
def undisturbed : RedisEvent → Bool
  | .restart _ => false
  | .read _ => false
  | .recover result => result = .done
  | .ackTask _ result => result = .done
  | .claim result => result = .done
  | .reclaimNext result => result = .done
  | .drop result => result = .done
  | .gauge result => result = .done
  | _ => true

/-- An iteration of `_poll_loop` in which no call fails: from `XREADGROUP` to the next one,
    with one read on the way. -/
structure Iteration (mq : RedisMqService) (s : RedisConsumer) (es : List RedisEvent)
    (s' : RedisConsumer) : Prop where
  atRead : s.await = .read
  shape : ∃ before after, es = before ++ .read .done :: after ∧
    (∀ e ∈ before, undisturbed e) ∧ ∀ e ∈ after, undisturbed e
  run : exec (step mq) s es = some s'
  ended : s'.await = .read

/-- What keeps the entry `id` coming:
    * the read returns a new entry;
    * the payloads of the new entries parse;
    * `XAUTOCLAIM` returns the entry;
    * no entry claimed before it, nor it itself, is one whose payload does not parse and
      whose delivery count is within the cap. -/
def KeepsComing (mq : RedisMqService) (id : Nat) (s : RedisConsumer) : RedisEvent → Prop
  | .read _ => s.group.undelivered 10 ≠ []
  | .startTask k => s.await = .gather → ∀ t ∈ s.tasks[k]?, t.awaited = true →
      mq.parses (s.fields t.messageId)
  | .claim _ => id ∈ s.group.claimable s.now mq.reclaimMinIdleMs 20
  | .reclaimNext result => ∀ id' ∈ s.await.batch.head?, id ∈ s.await.batch →
      if s.fields id' = [] then id' ≠ id
      else mq.maxDeliveries < s.deliveryCount id' result ∨ mq.parses (s.fields id')
  | _ => True

instance (mq : RedisMqService) (id : Nat) (s : RedisConsumer) :
    ∀ e, Decidable (KeepsComing mq id s e)
  | .read _ => inferInstanceAs (Decidable (s.group.undelivered 10 ≠ []))
  | .startTask k => inferInstanceAs (Decidable (_ → ∀ t, t ∈ s.tasks[k]? → _))
  | .claim _ => inferInstanceAs (Decidable (id ∈ _))
  | .reclaimNext _ => inferInstanceAs (Decidable (∀ id', id' ∈ s.await.batch.head? → _))
  | .tick _ | .publish _ | .restart _ | .recover _ | .recoverNext | .handlerDone .. | .ackTask ..
  | .gathered | .drop _ | .gauge _ => isTrue trivial

/-! ## An entry on its way -/

/-- The entry may still be claimed in the iteration, or is in the claimed batch. -/
def Ahead (id : Nat) (s : RedisConsumer) : Prop :=
  match s.await with
  | .gather => True
  | .claim => True
  | .reclaiming rest => id ∈ rest
  | .drop id' rest => id ∈ id' :: rest
  | _ => False

/-! The turns of the reclaim loop, which takes the entry `id'`. -/

section

variable {mq : RedisMqService} {id id' : Nat} {rest : List Nat} {s : RedisConsumer}

private theorem ahead_reclaiming (h : s.await = .reclaiming rest) : Ahead id s ↔ id ∈ rest := by
  unfold Ahead
  rw [h]

private theorem ahead_drop (h : s.await = .drop id' rest) : Ahead id s ↔ id ∈ id' :: rest := by
  unfold Ahead
  rw [h]

private theorem redelivered_reclaimNext (h : s.await = .reclaiming (id' :: rest))
    (result : RedisCall) : redelivered mq s (.reclaimNext result) =
      if s.fields id' ≠ [] ∧ s.deliveryCount id' result ≤ mq.maxDeliveries ∧
        mq.parses (s.fields id') then [id'] else [] := by
  unfold redelivered
  rw [h]

private theorem keepsComing_reclaimNext (h : s.await = .reclaiming (id' :: rest))
    (result : RedisCall) : KeepsComing mq id s (.reclaimNext result) ↔ (id ∈ id' :: rest →
      if s.fields id' = [] then id' ≠ id
      else mq.maxDeliveries < s.deliveryCount id' result ∨ mq.parses (s.fields id')) := by
  unfold KeepsComing
  rw [h]
  constructor
  · exact fun hkeeps => hkeeps id' rfl
  · rintro hkeeps _ ⟨⟩
    exact hkeeps

/-- A turn that dispatches or drops the first entry of the batch. -/
private theorem item_taken {s' : RedisConsumer} {e : RedisEvent}
    (hon : Ahead id s ↔ id ∈ id' :: rest) (hbatch : (id' :: rest).Nodup)
    (hawait' : s'.await = .reclaiming rest) (hout : redelivered mq s e = [id'])
    (hkeeps : KeepsComing mq id s e) :
    ItemStep (Ahead id) (KeepsComing mq id) (redelivered mq) id s e s' := by
  by_cases hid : id = id'
  · subst hid
    refine .output hkeeps (hon.mpr List.mem_cons_self) ?_ ?_
    · rw [ahead_reclaiming hawait']
      exact (List.nodup_cons.mp hbatch).1
    · rw [hout]
      exact List.mem_cons_self
  · refine .kept hkeeps ?_ ?_
    · rw [ahead_reclaiming hawait', hon, List.mem_cons]
      exact (or_iff_right hid).symm
    · rw [hout, List.mem_singleton]
      exact hid

end

/-- What a step does with the entry. -/
private theorem item_step {mq : RedisMqService} {id : Nat} (s : RedisConsumer) (e : RedisEvent)
    (s' : RedisConsumer) (h : s.Booked) (he : undisturbed e) (hstep : s.step mq e = some s') :
    ItemStep (Ahead id) (KeepsComing mq id) (redelivered mq) id s e s' := by
  have ht := transition_of_step hstep
  cases ht with
  | ticked ms => exact .kept trivial Iff.rfl List.not_mem_nil
  | published fields => exact .kept trivial Iff.rfl List.not_mem_nil
  | restarted consumer => exact nomatch he
  | recovered result hawait =>
    obtain rfl : result = .done := of_decide_eq_true he
    refine .kept trivial ?_ List.not_mem_nil
    unfold Ahead
    rw [hawait]
    exact Iff.rfl
  | claimed result hawait =>
    -- an entry past the batch of 20 is not claimed, and the iteration claims once
    obtain rfl : result = .done := of_decide_eq_true he
    have hon : Ahead id s := by
      unfold Ahead
      rw [hawait]
      trivial
    by_cases hid : id ∈ s.group.claimable s.now mq.reclaimMinIdleMs 20
    · exact .kept hid (iff_of_true hid hon) List.not_mem_nil
    · exact .lost hid hon hid List.not_mem_nil
  | read result hawait => exact nomatch he
  | recoverEnded hawait =>
    refine .kept trivial ?_ List.not_mem_nil
    unfold Ahead
    rw [hawait]
  | gathered hawait hfree =>
    refine .kept trivial ?_ List.not_mem_nil
    unfold Ahead
    rw [hawait]
  | reclaimEnded result hawait =>
    refine .kept ?_ ?_ ?_
    · intro id' hid'
      rw [hawait] at hid'
      exact nomatch hid'
    · rw [ahead_reclaiming hawait]
      exact iff_of_false (fun hon => hon) List.not_mem_nil
    · unfold redelivered
      rw [hawait]
      exact List.not_mem_nil
  | gauged result hawait =>
    refine .kept trivial ?_ List.not_mem_nil
    unfold Ahead
    rw [hawait]
  | skipped e id' rest await hturn hempty =>
    cases hturn with
    | recover id' rest hawait =>
      refine .kept trivial ?_ List.not_mem_nil
      unfold Ahead
      rw [hawait]
    | reclaim result id' rest hawait =>
      have hout : id ∉ redelivered mq s (.reclaimNext result) := by
        rw [redelivered_reclaimNext hawait, if_neg fun hn => hn.1 hempty]
        exact List.not_mem_nil
      have hkeeps : KeepsComing mq id s (.reclaimNext result) ↔ _ :=
        keepsComing_reclaimNext hawait result
      rw [if_pos hempty] at hkeeps
      have hbatch := h.nodup
      rw [hawait] at hbatch
      by_cases hid : id' = id
      · subst hid
        -- an entry without fields is a tombstone: the loop passes over it and does not drop it
        refine .lost (fun hk => hkeeps.mp hk List.mem_cons_self rfl) ?_ ?_ hout
        · rw [ahead_reclaiming hawait]
          exact List.mem_cons_self
        · exact (List.nodup_cons.mp hbatch).1
      · refine .kept (hkeeps.mpr fun _ => hid) ?_ hout
        rw [ahead_reclaiming hawait, List.mem_cons]
        exact (or_iff_right (Ne.symm hid)).symm
  | handled e id' rest await hturn hfields hcap =>
    cases hturn with
    | recover id' rest hawait =>
      refine .kept trivial ?_ List.not_mem_nil
      have hoff : ¬ Ahead id s := by
        unfold Ahead
        rw [hawait]
        exact fun hon => hon
      refine iff_of_false ?_ hoff
      unfold handleMessage
      split
      · exact fun hon => hon
      · exact fun hon => hon
    | reclaim result id' rest hawait =>
      have hcap := hcap result rfl
      have hkeeps : KeepsComing mq id s (.reclaimNext result) ↔ _ :=
        keepsComing_reclaimNext hawait result
      rw [if_neg hfields] at hkeeps
      have hbatch := h.nodup
      rw [hawait] at hbatch
      unfold handleMessage
      by_cases hparse : mq.parses (s.fields id')
      · have hout : redelivered mq s (.reclaimNext result) = [id'] := by
          rw [redelivered_reclaimNext hawait, if_pos ⟨hfields, hcap, hparse⟩]
        rw [if_pos hparse]
        exact item_taken (ahead_reclaiming hawait) hbatch rfl hout (hkeeps.mpr fun _ => Or.inr hparse)
      · have hout : id ∉ redelivered mq s (.reclaimNext result) := by
          rw [redelivered_reclaimNext hawait, if_neg fun hn => hparse hn.2.2]
          exact List.not_mem_nil
        rw [if_neg hparse]
        -- the payload does not parse: the loop raises and every entry still in the batch is lost
        by_cases hid : id ∈ id' :: rest
        · refine .lost (fun hk => ?_) ((ahead_reclaiming hawait).mpr hid) (fun hon => hon) hout
          exact (hkeeps.mp hk hid).elim (fun hlt => absurd hcap (Nat.not_le_of_lt hlt)) hparse
        · refine .kept (hkeeps.mpr fun hmem => absurd hmem hid) ?_ hout
          exact iff_of_false (fun hon => hon) fun hon => hid ((ahead_reclaiming hawait).mp hon)
  | overCap result id' rest hawait hfields hcap =>
    refine .kept ?_ ?_ ?_
    · rw [keepsComing_reclaimNext hawait, if_neg hfields]
      exact fun _ => Or.inl hcap
    · rw [ahead_reclaiming hawait]
      exact Iff.rfl
    · rw [redelivered_reclaimNext hawait, if_neg fun hn => absurd hn.2.1 (Nat.not_le_of_lt hcap)]
      exact List.not_mem_nil
  | dropped result id' rest hawait =>
    obtain rfl : result = .done := of_decide_eq_true he
    have hbatch := h.nodup
    rw [hawait] at hbatch
    have hout : redelivered mq s (.drop .done) = [id'] := by
      unfold redelivered
      rw [hawait]
      rfl
    exact item_taken (ahead_drop hawait) hbatch rfl hout trivial
  | started k id' awaited hk hparse =>
    refine .kept (fun _ t ht _ => ?_) Iff.rfl List.not_mem_nil
    rw [hk, Option.mem_some_iff] at ht
    subst ht
    exact hparse
  | startRaised k id' awaited hk hparse s'' hs'' =>
    subst hs''
    cases awaited with
    | true =>
      -- the loop is in `asyncio.gather`, which raises with the task
      have hawait := h.queued _ (List.mem_of_getElem? hk) rfl rfl
      have hon : Ahead id s := by
        unfold Ahead
        rw [hawait]
        trivial
      exact .lost (fun hkeeps => hparse (hkeeps hawait _ hk rfl)) hon (fun hon => hon)
        List.not_mem_nil
    | false =>
      refine .kept (fun _ t ht hawaited => ?_) Iff.rfl List.not_mem_nil
      rw [hk, Option.mem_some_iff] at ht
      subst ht
      exact nomatch hawaited
  | handlerEnded k id' awaited returned hk => exact .kept trivial Iff.rfl List.not_mem_nil
  | acked k id' awaited result hk => exact .kept trivial Iff.rfl List.not_mem_nil

/-! ## One iteration -/

/-- Before its read returns, an iteration waits. -/
private theorem not_ahead_of_read {id : Nat} {s : RedisConsumer} (h : s.await = .read) :
    ¬ Ahead id s := by
  unfold Ahead
  rw [h]
  exact fun hon => hon

/-- The entry is redelivered in the iteration exactly when every step keeps it coming. -/
private theorem mem_redelivered_iff {mq : RedisMqService} {s s' : RedisConsumer}
    {es : List RedisEvent} (h : s.Booked) (hit : Iteration mq s es s') (id : Nat) :
    id ∈ collect (step mq) (redelivered mq) s es ↔
      AllSteps (step mq) (KeepsComing mq id) s es := by
  obtain ⟨before, after, rfl, hbefore, hafter⟩ := hit.shape
  obtain ⟨t, ht, hrest⟩ := exec_append_eq_some.mp hit.run
  obtain ⟨u, hu, hrest⟩ := exec_cons_eq_some.mp hrest
  have hbooked := exec_invariant (booked_step mq) h ht
  -- before the read no entry is on its way, and each one stays off it
  obtain ⟨hkeeps, hout⟩ := not_mem_collect_of_off (booked_step mq) item_step h hbefore
    (not_ahead_of_read hit.atRead) ht
  have hread : id ∉ redelivered mq t (.read .done) := List.not_mem_nil
  rw [collect_append ht, allSteps_append ht, List.mem_append, or_iff_right hout,
    and_iff_right hkeeps, collect_cons hu, allSteps_cons hu, List.mem_append, or_iff_right hread]
  have hbooked' := booked_step mq t _ u hbooked hu
  cases transition_of_step hu with
  | skipped _ _ _ _ hturn => exact nomatch hturn
  | handled _ _ _ _ hturn => exact nomatch hturn
  | read _ hawait =>
    by_cases hnew : t.group.undelivered 10 = []
    · -- the iteration ends where it began
      have hoff : ¬ Ahead id (t.read .done) := by
        unfold RedisConsumer.read
        simp only [hnew, if_true]
        exact not_ahead_of_read hawait
      obtain ⟨-, hnot⟩ := not_mem_collect_of_off (booked_step mq) item_step hbooked' hafter
        hoff hrest
      exact iff_of_false hnot fun hk => hk.1 hnew
    · have hon : Ahead id (t.read .done) := by
        unfold RedisConsumer.read
        simp only [hnew, if_false]
        trivial
      rw [mem_collect_iff_of_on (booked_step mq) item_step hbooked' hafter hon hrest
        (not_ahead_of_read hit.ended)]
      exact (and_iff_right hnew).symm

/-- In every iteration from a reachable state, every due entry is dispatched again or dropped
    exactly when every step of the iteration keeps it coming. -/
theorem redelivered_iff_keepsComing (mq : RedisMqService) (consumer : String)
    (es₀ : List RedisEvent) (s : RedisConsumer)
    (hreach : exec (step mq) (start consumer) es₀ = some s) (es : List RedisEvent)
    (s' : RedisConsumer) (hit : Iteration mq s es s') :
    (∀ id ∈ s.dueBatch mq, id ∈ collect (step mq) (redelivered mq) s es) ↔
      ∀ id ∈ s.dueBatch mq, AllSteps (step mq) (KeepsComing mq id) s es :=
  forall₂_congr fun id _ => mem_redelivered_iff (booked_of_exec hreach) hit id

/-- The handler of the one message fails, and 30 seconds pass. -/
def failedOnce : List RedisEvent :=
  [.recover .done, .recoverNext, .publish goodEntry, .read .done, .startTask 0,
    .handlerDone 0 false, .gathered, .claim .done, .reclaimNext .done, .gauge .done, .tick 30000]

/-- An iteration with a new message: both messages are handled. -/
def busyIteration : List RedisEvent :=
  [.publish goodEntry, .read .done, .startTask 0, .handlerDone 0 true, .ackTask 0 .done,
    .gathered, .claim .done, .reclaimNext .done, .handlerDone 0 true, .ackTask 0 .done,
    .reclaimNext .done, .gauge .done]

theorem redelivered_busyIteration :
    ∃ s s', exec (step sampleMq) (start "consumer") failedOnce = some s ∧
      Iteration sampleMq s busyIteration s' ∧ s.dueBatch sampleMq = [0] ∧
      ∀ id ∈ s.dueBatch sampleMq, id ∈ collect (step sampleMq) (redelivered sampleMq) s busyIteration :=
  have hit := ⟨rfl, ⟨[.publish goodEntry], _, rfl, by decide, by decide⟩, rfl, rfl⟩
  ⟨_, _, rfl, hit, rfl,
    (redelivered_iff_keepsComing sampleMq "consumer" failedOnce _ rfl busyIteration _ hit).mpr
      (by decide)⟩

/-- Without a new message the iteration is over when `XREADGROUP` returns, and the message that
    is due stays as it is. -/
theorem not_redelivered_quietStream :
    ¬ ∀ (mq : RedisMqService) (consumer : String) (es₀ : List RedisEvent) (s : RedisConsumer),
      exec (step mq) (start consumer) es₀ = some s → ∀ (es : List RedisEvent)
        (s' : RedisConsumer), Iteration mq s es s' →
          ∀ id ∈ s.dueBatch mq, id ∈ collect (step mq) (redelivered mq) s es := by
  intro h
  have hit := h sampleMq "consumer" failedOnce _ rfl [.read .done] _
    ⟨rfl, ⟨[], [], rfl, by decide, by decide⟩, rfl, rfl⟩
  revert hit
  decide

end RedisConsumer

end Inherent
