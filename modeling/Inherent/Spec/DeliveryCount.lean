import Inherent.Spec.RedisMq

/-!
# Deliveries are not failures

`_reclaim_pending` drops a message by its delivery counter, and every call that returns an
entry counts, whether or not its handler is run.  So a drop is earned only as far as the
deliveries of the message have led to runs of its handler.
-/

namespace Inherent

open EventRun

namespace RedisConsumer

/-- The messages that the event drops: the `XACK` of `_reclaim_pending`, of an entry that is
    pending. -/
def dropped (s : RedisConsumer) : RedisEvent → List Nat
  | .drop result =>
    match s.await with
    | .drop id _ => if result.executed ∧ (s.group.deliveries id).isSome then [id] else []
    | _ => []
  | _ => []

/-- The messages that the event acknowledges: those it drops, and those that `_handle_message`
    acknowledges. -/
def acknowledged (s : RedisConsumer) : RedisEvent → List Nat
  | .ackTask k result =>
    match s.tasks[k]? with
    | some ⟨id, .acking, _⟩ =>
      if result.executed ∧ (s.group.deliveries id).isSome then [id] else []
    | _ => []
  | e => s.dropped e

/-- A message is acknowledged only after its own handler has returned, or has been run and
    failed `_max_deliveries` times. -/
def AckEarned (mq : RedisMqService) (s : RedisConsumer) (e : RedisEvent) : Prop :=
  ∀ id ∈ s.acknowledged e,
    (id, true) ∈ s.runs ∨ mq.maxDeliveries ≤ s.runs.count (id, false)

instance (mq : RedisMqService) (s : RedisConsumer) (e : RedisEvent) :
    Decidable (AckEarned mq s e) :=
  inferInstanceAs (Decidable (∀ id, id ∈ s.acknowledged e → _))

/-- The deliveries of the message that have not brought its handler to an end. -/
def unhandled (s : RedisConsumer) (id : Nat) : Nat := (s.lost ++ s.opened).count id

/-- A message that is dropped has had its handler return once, or its counter exceeds
    `_max_deliveries` by at least the deliveries that have not brought the handler to an end,
    the one that is dropped among them. -/
def DropCounted (mq : RedisMqService) (s : RedisConsumer) (e : RedisEvent) : Prop :=
  ∀ id ∈ s.dropped e, ∀ d ∈ s.group.deliveries id,
    (id, true) ∈ s.runs ∨ s.unhandled id + mq.maxDeliveries ≤ d

instance (mq : RedisMqService) (s : RedisConsumer) (e : RedisEvent) :
    Decidable (DropCounted mq s e) :=
  inferInstanceAs (Decidable (∀ id, id ∈ s.dropped e → ∀ d, d ∈ s.group.deliveries id → _))

/-! ## Runs of the handler -/

/-- Each run of the handler either returned or failed. -/
private theorem count_runs (runs : List (Nat × Bool)) (id : Nat) :
    (runs.map Prod.fst).count id = runs.count (id, true) + runs.count (id, false) := by
  induction runs with
  | nil => rfl
  | cons run runs ih =>
    obtain ⟨id', returned⟩ := run
    rw [List.map_cons, List.count_cons, List.count_cons, List.count_cons, ih]
    cases returned <;> simp <;> omega

/-- The counter of a pending entry: its failed runs and the deliveries that have not brought
    the handler to an end, when it has never returned. -/
theorem deliveries_eq {s : RedisConsumer} (h : s.Booked) {id d : Nat}
    (hd : s.group.deliveries id = some d) (hnever : (id, true) ∉ s.runs) :
    d = s.runs.count (id, false) + s.unhandled id := by
  have hcount := h.counts.count id d hd
  -- of the runs of the handler only the failed ones are left
  have hzero := List.count_eq_zero_of_not_mem hnever
  have hruns := count_runs s.runs id
  unfold ledger at hcount
  unfold unhandled
  rw [List.append_assoc, List.count_append] at hcount
  omega

/-- A message that is dropped is pending. -/
private theorem exists_deliveries_of_dropped {s : RedisConsumer} {e : RedisEvent} {id : Nat}
    (h : id ∈ s.dropped e) : ∃ d, s.group.deliveries id = some d := by
  cases e with
  | drop result =>
    unfold dropped at h
    simp only at h
    split at h
    · split at h
      · rename_i hpending
        rw [List.mem_singleton] at h
        exact h ▸ Option.isSome_iff_exists.mp hpending.2
      · exact absurd h List.not_mem_nil
    · exact absurd h List.not_mem_nil
  | _ => exact absurd h List.not_mem_nil

/-- A message that `_handle_message` acknowledges has had its handler return. -/
private theorem returned_of_acknowledged {s : RedisConsumer} (hs : s.Booked) {e : RedisEvent}
    {id : Nat} (h : id ∈ s.acknowledged e) : id ∈ s.dropped e ∨ (id, true) ∈ s.runs := by
  cases e with
  | ackTask k result =>
    unfold acknowledged at h
    simp only at h
    split at h
    · rename_i id' awaited hk
      split at h
      · rw [List.mem_singleton] at h
        subst h
        exact Or.inr (hs.acking _ (List.mem_of_getElem? hk) rfl)
      · exact absurd h List.not_mem_nil
    · exact absurd h List.not_mem_nil
  | _ => exact Or.inl h

/-- What an event drops it acknowledges. -/
private theorem acknowledged_of_dropped {s : RedisConsumer} {e : RedisEvent} {id : Nat}
    (h : id ∈ s.dropped e) : id ∈ s.acknowledged e := by
  cases e with
  | drop result => exact h
  | _ => exact absurd h List.not_mem_nil

/-- One event: its acknowledgements are earned exactly when its drops are counted. -/
private theorem ackEarned_iff {mq : RedisMqService} (s : RedisConsumer) (e : RedisEvent)
    (h : s.Booked) : AckEarned mq s e ↔ DropCounted mq s e := by
  constructor
  · intro hearned id hid d hd
    by_cases hreturned : (id, true) ∈ s.runs
    · exact Or.inl hreturned
    · -- the counter is the failed runs and the deliveries without an end, so one bound is the
      -- other
      have hfailed := (hearned id (acknowledged_of_dropped hid)).resolve_left hreturned
      have heq := deliveries_eq h hd hreturned
      exact Or.inr (by omega)
  · intro hcounted id hid
    rcases returned_of_acknowledged h hid with hid | hreturned
    · by_cases hreturned : (id, true) ∈ s.runs
      · exact Or.inl hreturned
      · obtain ⟨d, hd⟩ := exists_deliveries_of_dropped hid
        have hle := (hcounted id hid d hd).resolve_left hreturned
        have heq := deliveries_eq h hd hreturned
        exact Or.inr (by omega)
    · exact Or.inl hreturned

/-! ## Every run -/

/-- In every run, every acknowledgement is earned exactly when every drop is counted. -/
theorem ackEarned_iff_dropCounted (mq : RedisMqService) (consumer : String)
    (es : List RedisEvent) (s : RedisConsumer)
    (hrun : exec (step mq) (start consumer) es = some s) :
    AllSteps (step mq) (AckEarned mq) (start consumer) es ↔
      AllSteps (step mq) (DropCounted mq) (start consumer) es :=
  allSteps_congr_of_invariant (booked_step mq) (fun s e _ h _ => ackEarned_iff s e h)
    (booked_start consumer) hrun

/-- A new message is handled, and then `_reclaim_pending` claims what has been idle. -/
def newTraffic : List RedisEvent :=
  [.publish goodEntry, .read .done, .startTask 0, .handlerDone 0 true, .ackTask 0 .done,
    .gathered, .tick 30000, .claim .done, .reclaimNext .done]

/-- The handler of the one message fails five times; the sixth delivery is dropped. -/
def failingMessage : List RedisEvent :=
  let failAgain : List RedisEvent :=
    newTraffic ++ ([.handlerDone 0 false, .reclaimNext .done, .gauge .done] : List RedisEvent)
  ([.recover .done, .recoverNext, .publish goodEntry, .read .done, .startTask 0,
    .handlerDone 0 false, .gathered, .claim .done, .reclaimNext .done, .gauge .done] :
      List RedisEvent) ++
    failAgain ++ failAgain ++ failAgain ++ failAgain ++ newTraffic ++
    ([.drop .done] : List RedisEvent)

theorem ackEarned_failingMessage :
    ∃ s, exec (step sampleMq) (start "consumer") failingMessage = some s ∧
      s.group.deliveries 0 = none ∧
      AllSteps (step sampleMq) (AckEarned sampleMq) (start "consumer") failingMessage := by
  have hdrop : (exec (step sampleMq) (start "consumer") failingMessage).map
      (·.group.deliveries 0) = some none := by decide
  obtain ⟨s, hrun, hgone⟩ := Option.map_eq_some_iff.mp hdrop
  exact ⟨s, hrun, hgone,
    (ackEarned_iff_dropCounted sampleMq "consumer" failingMessage s hrun).mpr (by decide)⟩

/-- A message that does not parse comes before one whose handler fails once; each claim of
    both counts for both, and the payload of the first ends the batch. -/
def poisonBatch : List RedisEvent :=
  ([.recover .done, .recoverNext, .publish badEntry, .publish goodEntry, .read .done,
    .startTask 0, .startTask 0, .handlerDone 0 false] : List RedisEvent) ++
    newTraffic ++ newTraffic ++ newTraffic ++ newTraffic ++ newTraffic ++
    ([.drop .done, .reclaimNext .done] : List RedisEvent)

/-- The second message is dropped after one failed run of its handler. -/
theorem not_ackEarned_poisonBatch :
    (∃ s, exec (step sampleMq) (start "consumer") poisonBatch = some s ∧
      s.acknowledged (.drop .done) = [1] ∧ s.runs.filter (·.1 = 1) = [(1, false)]) ∧
    ¬ ∀ (mq : RedisMqService) (consumer : String) (es : List RedisEvent) (s : RedisConsumer),
      exec (step mq) (start consumer) es = some s →
        AllSteps (step mq) (AckEarned mq) (start consumer) es := by
  constructor
  · have hdrop : (exec (step sampleMq) (start "consumer") poisonBatch).map
        (fun s => (s.acknowledged (.drop .done), s.runs.filter (·.1 = 1))) =
          some ([1], [(1, false)]) := by decide
    obtain ⟨s, hrun, heq⟩ := Option.map_eq_some_iff.mp hdrop
    exact ⟨s, hrun, congrArg Prod.fst heq, congrArg Prod.snd heq⟩
  · intro h
    have hdone : (exec (step sampleMq) (start "consumer")
        (poisonBatch ++ [.drop .done])).isSome := by decide
    obtain ⟨s, hrun⟩ := Option.isSome_iff_exists.mp hdone
    have hearned := h sampleMq "consumer" (poisonBatch ++ [.drop .done]) s hrun
    revert hearned
    decide

end RedisConsumer

end Inherent
