import Inherent.ForStd.Run
import Inherent.Native.RedisMq
import Mathlib

/-!
# What a step of the consumer does

`Transition` lists the ways a step can go.  From it: the ledger of the deliveries, in which
each delivery is a run of the handler, lost, or open, agrees with the delivery counters of
the group in every state of every run; a task that acknowledges has had its handler return;
and a batch holds an entry once.
-/

namespace Inherent

open EventRun

namespace RedisConsumer

/-- A process under the name `consumer` on a stream without entries. -/
def start (consumer : String) : RedisConsumer := { consumer := consumer }

/-! ## The ways a step can go -/

/-- `Turn s e id rest await`: in `s` the event `e` is the turn of a `for` that takes the entry
    `id`, with `rest` to come; the loop goes on at `await`. -/
inductive Turn (s : RedisConsumer) : RedisEvent → Nat → List Nat → PollAwait → Prop where
  | recover (id : Nat) (rest : List Nat) (h : s.await = .recovering (id :: rest)) :
      Turn s .recoverNext id rest (.recovering rest)
  | reclaim (result : RedisCall) (id : Nat) (rest : List Nat)
      (h : s.await = .reclaiming (id :: rest)) :
      Turn s (.reclaimNext result) id rest (.reclaiming rest)

/-- A turn takes the first entry of the batch. -/
theorem Turn.batch {s : RedisConsumer} {e : RedisEvent} {id : Nat} {rest : List Nat}
    {await : PollAwait} (h : s.Turn e id rest await) :
    s.await.batch = id :: rest ∧ await.batch = rest := by
  cases h with
  | recover id rest h => exact ⟨by rw [h]; rfl, rfl⟩
  | reclaim result id rest h => exact ⟨by rw [h]; rfl, rfl⟩

/-- `s.Transition mq e s'`: the event `e` can happen in `s` and leaves `s'`. -/
inductive Transition (mq : RedisMqService) (s : RedisConsumer) :
    RedisEvent → RedisConsumer → Prop where
  | ticked (ms : Nat) : Transition mq s (.tick ms) { s with now := s.now + ms }
  | published (fields : EntryFields) :
      Transition mq s (.publish fields) { s with group := s.group.add fields }
  | restarted (consumer : String) : Transition mq s (.restart consumer) { s with
      consumer := consumer
      await := .recover
      tasks := []
      lost := s.lost ++ s.opened }
  | recovered (result : RedisCall) (h : s.await = .recover) :
      Transition mq s (.recover result) (s.receive (s.group.history s.consumer 100)
        (.recovering (s.group.history s.consumer 100)) .read result)
  | claimed (result : RedisCall) (h : s.await = .claim) :
      Transition mq s (.claim result)
        (s.receive (s.group.claimable s.now mq.reclaimMinIdleMs 20)
          (.reclaiming (s.group.claimable s.now mq.reclaimMinIdleMs 20)) .gauge result)
  | read (result : RedisCall) (h : s.await = .read) :
      Transition mq s (.read result) (s.read result)
  | recoverEnded (h : s.await = .recovering []) :
      Transition mq s .recoverNext { s with await := .read }
  | gathered (h : s.await = .gather) (hfree : s.Free) :
      Transition mq s .gathered { s with await := .claim }
  | reclaimEnded (result : RedisCall) (h : s.await = .reclaiming []) :
      Transition mq s (.reclaimNext result) { s with await := .gauge }
  | gauged (result : RedisCall) (h : s.await = .gauge) :
      Transition mq s (.gauge result) { s with await := .read }
  | skipped (e : RedisEvent) (id : Nat) (rest : List Nat) (await : PollAwait)
      (hturn : s.Turn e id rest await) (hempty : s.fields id = []) :
      Transition mq s e { s with
        await := await
        lost := s.lost ++ [id] }
  | handled (e : RedisEvent) (id : Nat) (rest : List Nat) (await : PollAwait)
      (hturn : s.Turn e id rest await) (hfields : s.fields id ≠ [])
      (hcap : ∀ result, e = .reclaimNext result → s.deliveryCount id result ≤ mq.maxDeliveries) :
      Transition mq s e (s.handleMessage mq id rest await)
  | overCap (result : RedisCall) (id : Nat) (rest : List Nat)
      (h : s.await = .reclaiming (id :: rest)) (hfields : s.fields id ≠ [])
      (hcap : mq.maxDeliveries < s.deliveryCount id result) :
      Transition mq s (.reclaimNext result) { s with await := .drop id rest }
  | dropped (result : RedisCall) (id : Nat) (rest : List Nat) (h : s.await = .drop id rest) :
      Transition mq s (.drop result) (s.dropMessage id rest result)
  | started (k id : Nat) (awaited : Bool) (hk : s.tasks[k]? = some ⟨id, .queued, awaited⟩)
      (hparse : mq.parses (s.fields id)) : Transition mq s (.startTask k)
        { s with tasks := s.tasks.set k ⟨id, .handling, awaited⟩ }
  | startRaised (k id : Nat) (awaited : Bool)
      (hk : s.tasks[k]? = some ⟨id, .queued, awaited⟩) (hparse : ¬ mq.parses (s.fields id))
      (s' : RedisConsumer) (hs' : s' = { s with tasks := s.tasks.eraseIdx k }) :
      Transition mq s (.startTask k)
        (if awaited then s'.raise [id] else { s' with lost := s.lost ++ [id] })
  | handlerEnded (k id : Nat) (awaited returned : Bool)
      (hk : s.tasks[k]? = some ⟨id, .handling, awaited⟩) :
      Transition mq s (.handlerDone k returned) { s with
        tasks := if returned then s.tasks.set k ⟨id, .acking, awaited⟩ else s.tasks.eraseIdx k
        runs := s.runs ++ [(id, returned)] }
  | acked (k id : Nat) (awaited : Bool) (result : RedisCall)
      (hk : s.tasks[k]? = some ⟨id, .acking, awaited⟩) : Transition mq s (.ackTask k result)
        { s with
          group := if result.executed then s.group.ack id else s.group
          tasks := s.tasks.eraseIdx k }

/-- Every step is one of the transitions. -/
theorem transition_of_step {mq : RedisMqService} {s s' : RedisConsumer} {e : RedisEvent}
    (h : s.step mq e = some s') : s.Transition mq e s' := by
  cases e with
  | tick ms =>
    obtain rfl := Option.some.inj h
    exact .ticked ms
  | publish fields =>
    obtain rfl := Option.some.inj h
    exact .published fields
  | restart consumer =>
    obtain rfl := Option.some.inj h
    exact .restarted consumer
  | recover result =>
    simp only [step] at h
    split at h
    · rename_i hawait
      obtain rfl := Option.some.inj h
      exact .recovered result hawait
    · exact nomatch h
  | recoverNext =>
    simp only [step, recoverNext] at h
    split at h
    · split at h
      · rename_i hawait
        obtain rfl := Option.some.inj h
        exact .recoverEnded hawait
      · rename_i id rest hawait
        split at h
        · -- the entry is gone from the stream, and its delivery is skipped
          rename_i hempty
          obtain rfl := Option.some.inj h
          exact .skipped _ id rest _ (.recover id rest hawait) hempty
        · rename_i hfields
          obtain rfl := Option.some.inj h
          exact .handled _ id rest _ (.recover id rest hawait) hfields nofun
      · exact nomatch h
    · exact nomatch h
  | read result =>
    simp only [step] at h
    split at h
    · rename_i hawait
      obtain rfl := Option.some.inj h
      exact .read result hawait
    · exact nomatch h
  | startTask k =>
    simp only [step, startTask] at h
    split at h
    · rename_i id awaited hk
      split at h
      · rename_i hparse
        obtain rfl := Option.some.inj h
        exact .started k id awaited hk hparse
      · rename_i hparse
        obtain rfl := Option.some.inj h
        exact .startRaised k id awaited hk hparse _ rfl
    · exact nomatch h
  | handlerDone k returned =>
    simp only [step, handlerDone] at h
    split at h
    · rename_i id awaited hk
      obtain rfl := Option.some.inj h
      exact .handlerEnded k id awaited returned hk
    · exact nomatch h
  | ackTask k result =>
    simp only [step, ackTask] at h
    split at h
    · rename_i id awaited hk
      obtain rfl := Option.some.inj h
      exact .acked k id awaited result hk
    · exact nomatch h
  | gathered =>
    simp only [step] at h
    split at h
    · rename_i hopen
      obtain rfl := Option.some.inj h
      exact .gathered hopen.1 hopen.2
    · exact nomatch h
  | claim result =>
    simp only [step] at h
    split at h
    · rename_i hawait
      obtain rfl := Option.some.inj h
      exact .claimed result hawait
    · exact nomatch h
  | reclaimNext result =>
    simp only [step, reclaimNext] at h
    split at h
    · split at h
      · rename_i hawait
        obtain rfl := Option.some.inj h
        exact .reclaimEnded result hawait
      · rename_i id rest hawait
        split at h
        · rename_i hempty
          obtain rfl := Option.some.inj h
          exact .skipped _ id rest _ (.reclaim result id rest hawait) hempty
        · rename_i hfields
          split at h
          · -- the entry has been delivered more often than the cap allows
            rename_i hcap
            obtain rfl := Option.some.inj h
            exact .overCap result id rest hawait hfields hcap
          · rename_i hcap
            obtain rfl := Option.some.inj h
            refine .handled _ id rest _ (.reclaim result id rest hawait) hfields ?_
            rintro _ ⟨⟩
            exact Nat.le_of_not_lt hcap
      · exact nomatch h
    · exact nomatch h
  | drop result =>
    simp only [step] at h
    split at h
    · rename_i id rest hawait
      obtain rfl := Option.some.inj h
      exact .dropped result id rest hawait
    · exact nomatch h
  | gauge result =>
    simp only [step] at h
    split at h
    · rename_i hawait
      obtain rfl := Option.some.inj h
      exact .gauged result hawait
    · exact nomatch h


/-! ## The ledger of the deliveries -/

/-- The messages of the tasks that have not run the handler to its end. -/
def openIds (tasks : List HandlerTask) : List Nat :=
  (tasks.filter (·.phase ≠ .acking)).map (·.messageId)

/-- Every delivery: a run of the handler, lost, or open. -/
def ledger (s : RedisConsumer) : List Nat := s.runs.map Prod.fst ++ s.lost ++ s.opened

theorem count_ledger (s : RedisConsumer) (i : Nat) :
    s.ledger.count i = (s.runs.map Prod.fst).count i + s.lost.count i +
      ((openIds s.tasks).count i + s.await.batch.count i) := by
  unfold ledger opened openIds
  rw [List.count_append, List.count_append, List.count_append]

private theorem openIds_perm {tasks tasks' : List HandlerTask} (h : tasks.Perm tasks') :
    (openIds tasks).Perm (openIds tasks') :=
  (h.filter _).map _

private theorem openIds_append (tasks tasks' : List HandlerTask) :
    openIds (tasks ++ tasks') = openIds tasks ++ openIds tasks' := by
  unfold openIds
  rw [List.filter_append, List.map_append]

private theorem openIds_queued (ids : List Nat) :
    openIds (ids.map (⟨·, .queued, true⟩)) = ids := by
  induction ids with
  | nil => rfl
  | cons id ids ih =>
    show id :: openIds (ids.map _) = id :: ids
    rw [ih]

/-- The open messages are that of the `k`-th task, if it is open, and those of the others. -/
private theorem count_openIds {tasks : List HandlerTask} {k : Nat} {t : HandlerTask}
    (hk : tasks[k]? = some t) (i : Nat) : (openIds tasks).count i =
      (openIds [t]).count i + (openIds (tasks.eraseIdx k)).count i := by
  obtain ⟨hlt, rfl⟩ := List.getElem?_eq_some_iff.mp hk
  rw [← (openIds_perm (List.getElem_cons_eraseIdx_perm hlt)).count_eq i]
  show (openIds ([tasks[k]] ++ tasks.eraseIdx k)).count i = _
  rw [openIds_append, List.count_append]

private theorem count_openIds_set {tasks : List HandlerTask} {k : Nat} {t t' : HandlerTask}
    (hk : tasks[k]? = some t) (i : Nat) : (openIds (tasks.set k t')).count i =
      (openIds [t']).count i + (openIds (tasks.eraseIdx k)).count i := by
  obtain ⟨hlt, -⟩ := List.getElem?_eq_some_iff.mp hk
  have hk' : (tasks.set k t')[k]? = some t' := List.getElem?_set_self hlt
  rw [count_openIds hk' i, List.eraseIdx_set_eq]

private theorem openIds_detach (tasks : List HandlerTask) :
    openIds (tasks.map fun t => { t with awaited := false }) = openIds tasks := by
  unfold openIds
  rw [List.filter_map, List.map_map]
  rfl

/-- What an exception loses was open. -/
private theorem count_ledger_raise (s : RedisConsumer) (ids : List Nat) (i : Nat) :
    (s.raise ids).ledger.count i = (s.runs.map Prod.fst).count i + s.lost.count i +
      ids.count i + (openIds s.tasks).count i := by
  rw [count_ledger]
  show (s.runs.map Prod.fst).count i + (s.lost ++ ids).count i +
    ((openIds (s.tasks.map _)).count i + [].count i) = _
  rw [openIds_detach, List.count_append, List.count_nil]
  omega

private theorem counts_of_count {g : StreamGroup EntryFields} {ledger ledger' : List Nat}
    (h : g.Counts ledger) (hcount : ∀ i, ledger'.count i = ledger.count i) :
    g.Counts ledger' :=
  h.perm (List.perm_iff_count.mpr hcount)

/-- A call that delivers the entries `ids`. -/
private theorem counts_receive {s : RedisConsumer} (h : s.group.Counts s.ledger)
    {ids : List Nat} (hnd : ids.Nodup) (hlt : ∀ id ∈ ids, id < s.group.lastDelivered)
    {await onError : PollAwait} (hbatch : s.await.batch = []) (hawait : await.batch = ids)
    (honError : onError.batch = []) (result : RedisCall) :
    (s.receive ids await onError result).group.Counts
      (s.receive ids await onError result).ledger := by
  have hmore := h.redeliver hnd hlt s.consumer s.now
  cases result with
  | done =>
    apply counts_of_count hmore
    intro i
    rw [count_ledger, List.count_append, count_ledger, hbatch]
    -- the reply names the entries: each new delivery is in the batch of the loop
    show _ + (_ + await.batch.count i) = _
    rw [hawait, List.count_nil]
    show (s.runs.map Prod.fst).count i + s.lost.count i + ((openIds s.tasks).count i + _) = _
    omega
  | refused =>
    -- the server did nothing, so neither side counts a delivery
    apply counts_of_count h
    intro i
    rw [count_ledger, count_ledger, hbatch]
    show _ + (_ + onError.batch.count i) = _
    rw [honError]
    rfl
  | replyLost =>
    apply counts_of_count hmore
    intro i
    rw [count_ledger, List.count_append, count_ledger, hbatch]
    -- the server has counted the deliveries and nobody will handle them: they are lost
    show _ + (s.lost ++ ids).count i + (_ + onError.batch.count i) = _
    rw [honError, List.count_append, List.count_nil]
    show (s.runs.map Prod.fst).count i + _ + ((openIds s.tasks).count i + _) = _
    omega

/-- A step of a task. -/
private theorem counts_of_tasks {s : RedisConsumer} (h : s.group.Counts s.ledger)
    {tasks : List HandlerTask} {runs : List (Nat × Bool)} {lost : List Nat}
    (hcount : ∀ i, (runs.map Prod.fst).count i + lost.count i + (openIds tasks).count i =
      (s.runs.map Prod.fst).count i + s.lost.count i + (openIds s.tasks).count i) :
    s.group.Counts ({ s with tasks := tasks, runs := runs, lost := lost } : RedisConsumer).ledger := by
  apply counts_of_count h
  intro i
  have := hcount i
  rw [count_ledger, count_ledger]
  show (runs.map Prod.fst).count i + lost.count i +
    ((openIds tasks).count i + s.await.batch.count i) = _
  omega

/-- What the batch of the loop becomes when the loop goes on. -/
private theorem counts_of_batch {s : RedisConsumer} (h : s.group.Counts s.ledger)
    {await : PollAwait} {lost : List Nat}
    (hcount : ∀ i, lost.count i + await.batch.count i = s.lost.count i + s.await.batch.count i) :
    s.group.Counts ({ s with await := await, lost := lost } : RedisConsumer).ledger := by
  apply counts_of_count h
  intro i
  have := hcount i
  rw [count_ledger, count_ledger]
  show (s.runs.map Prod.fst).count i + lost.count i +
    ((openIds s.tasks).count i + await.batch.count i) = _
  omega

/-- An exception that loses the whole batch. -/
private theorem counts_raise {s : RedisConsumer} (h : s.group.Counts s.ledger) :
    s.group.Counts (s.raise s.await.batch).ledger := by
  apply counts_of_count h
  intro i
  rw [count_ledger_raise, count_ledger]
  omega

private theorem counts_handleMessage {mq : RedisMqService} {s : RedisConsumer}
    (h : s.group.Counts s.ledger) {id : Nat} {rest : List Nat} {await : PollAwait}
    (hbatch : s.await.batch = id :: rest) (hawait : await.batch = rest) :
    (s.handleMessage mq id rest await).group.Counts
      (s.handleMessage mq id rest await).ledger := by
  unfold handleMessage
  split
  · apply counts_of_count h
    intro i
    rw [count_ledger, count_ledger, hbatch]
    show (s.runs.map Prod.fst).count i + s.lost.count i +
      ((openIds (s.tasks ++ [⟨id, .handling, true⟩])).count i + await.batch.count i) = _
    rw [openIds_append, hawait, List.count_append, show id :: rest = [id] ++ rest from rfl,
      List.count_append]
    show _ + (_ + [id].count i + _) = _
    omega
  · -- a payload that does not parse raises out of the loop and takes the rest of the batch along
    rw [← hbatch]
    exact counts_raise h

private theorem counts_read {s : RedisConsumer} (h : s.group.Counts s.ledger)
    (hawait : s.await = .read) (result : RedisCall) :
    (s.read result).group.Counts (s.read result).ledger := by
  have hmore := h.readNew s.consumer s.now 10
  cases result with
  | done =>
    show (if s.group.undelivered 10 = [] then s else _ : RedisConsumer).group.Counts _
    unfold read
    -- `_poll_loop` takes an empty reply as no batch and waits again
    by_cases hnew : s.group.undelivered 10 = []
    · simp only [hnew, if_true]
      exact h
    · simp only [hnew, if_false]
      apply counts_of_count hmore
      intro i
      rw [count_ledger, List.count_append, count_ledger, hawait]
      show (s.runs.map Prod.fst).count i + s.lost.count i +
        ((openIds (s.tasks ++ (s.group.undelivered 10).map (⟨·, .queued, true⟩))).count i + 0) = _
      rw [openIds_append, openIds_queued, List.count_append]
      show _ = _ + (_ + 0) + _
      omega
  | refused => exact h
  | replyLost =>
    apply counts_of_count hmore
    intro i
    rw [count_ledger, List.count_append, count_ledger]
    show (s.runs.map Prod.fst).count i + (s.lost ++ s.group.undelivered 10).count i +
      ((openIds s.tasks).count i + s.await.batch.count i) = _
    rw [List.count_append]
    omega

private theorem counts_dropMessage {s : RedisConsumer} (h : s.group.Counts s.ledger) {id : Nat}
    {rest : List Nat} (hawait : s.await = .drop id rest) (result : RedisCall) :
    (s.dropMessage id rest result).group.Counts (s.dropMessage id rest result).ledger := by
  have hbatch : s.await.batch = id :: rest := by
    rw [hawait]
    rfl
  -- an `XACK` takes the entry out of the pending list, which no count of deliveries depends on
  have hack : ∀ g, g = (if result.executed then s.group.ack id else s.group) →
      g.Counts s.ledger := by
    rintro g rfl
    split
    · exact h.ack id
    · exact h
  cases result with
  | done =>
    apply counts_of_count (hack _ rfl)
    intro i
    rw [count_ledger, count_ledger, hbatch, show id :: rest = [id] ++ rest from rfl,
      List.count_append]
    show (s.runs.map Prod.fst).count i + (s.lost ++ [id]).count i +
      ((openIds s.tasks).count i + rest.count i) = _
    rw [List.count_append]
    omega
  | refused =>
    unfold dropMessage
    rw [← hbatch]
    exact counts_raise (s := { s with group := s.group }) h
  | replyLost =>
    unfold dropMessage
    rw [← hbatch]
    exact counts_raise (s := { s with group := s.group.ack id }) (h.ack id)

/-- The loop waits for a queued task only in `asyncio.gather`. -/
def QueuedInGather (s : RedisConsumer) : Prop :=
  ∀ t ∈ s.tasks, t.phase = .queued → t.awaited = true → s.await = .gather

/-- A step keeps the ledger in agreement with the counters. -/
theorem counts_step {mq : RedisMqService} {s s' : RedisConsumer} {e : RedisEvent}
    (h : s.group.Counts s.ledger) (hqueued : s.QueuedInGather) (hstep : s.Transition mq e s') :
    s'.group.Counts s'.ledger := by
  cases hstep with
  | ticked ms => exact h
  | published fields => exact h.add fields
  | restarted consumer =>
    apply counts_of_count h
    intro i
    rw [count_ledger, count_ledger]
    -- what was open in the old process is lost with it
    show _ + (s.lost ++ s.opened).count i + ((openIds []).count i + [].count i) = _
    unfold opened
    rw [List.count_append, List.count_append]
    show (s.runs.map Prod.fst).count i + (_ + ((openIds s.tasks).count i + _)) + 0 = _
    omega
  | recovered result hawait =>
    have hbatch : s.await.batch = [] := by rw [hawait]; rfl
    exact counts_receive h (s.group.nodup_history _ _) (s.group.lt_of_mem_history _ _) hbatch
      rfl rfl result
  | claimed result hawait =>
    have hbatch : s.await.batch = [] := by rw [hawait]; rfl
    exact counts_receive h (s.group.nodup_claimable _ _ _) (s.group.lt_of_mem_claimable _ _ _)
      hbatch rfl rfl result
  | read result hawait => exact counts_read h hawait result
  | recoverEnded hawait => exact counts_of_batch h fun i => by rw [hawait]; rfl
  | gathered hawait => exact counts_of_batch h fun i => by rw [hawait]; rfl
  | reclaimEnded result hawait => exact counts_of_batch h fun i => by rw [hawait]; rfl
  | gauged result hawait => exact counts_of_batch h fun i => by rw [hawait]; rfl
  | skipped e id rest await hturn hempty =>
    obtain ⟨hbatch, hrest⟩ := hturn.batch
    apply counts_of_batch h
    intro i
    rw [hbatch, hrest, show id :: rest = [id] ++ rest from rfl, List.count_append,
      List.count_append]
    omega
  | handled e id rest await hturn hfields hcap =>
    obtain ⟨hbatch, hrest⟩ := hturn.batch
    exact counts_handleMessage h hbatch hrest
  | overCap result id rest hawait hfields hcap =>
    exact counts_of_batch h fun i => by rw [hawait]; rfl
  | dropped result id rest hawait => exact counts_dropMessage h hawait result
  | started k id awaited hk hparse =>
    apply counts_of_tasks h
    intro i
    rw [count_openIds hk, count_openIds_set hk]
    rfl
  | startRaised k id awaited hk hparse s' hs' =>
    subst hs'
    have hsplit := count_openIds hk
    split
    · rename_i hawaited
      -- the loop is in `asyncio.gather` and holds no batch
      have hawait := hqueued _ (List.mem_of_getElem? hk) rfl hawaited
      apply counts_of_count h
      intro i
      rw [count_ledger_raise, count_ledger, hsplit i, hawait]
      show (s.runs.map Prod.fst).count i + s.lost.count i + _ +
        (openIds (s.tasks.eraseIdx k)).count i = _ + ([id].count i + _ + 0)
      omega
    · apply counts_of_tasks h
      intro i
      rw [hsplit i, List.count_append]
      show (s.runs.map Prod.fst).count i + (_ + [id].count i) + (openIds (s.tasks.eraseIdx k)).count i =
        _ + _ + ([id].count i + _)
      omega
  | handlerEnded k id awaited returned hk =>
    apply counts_of_tasks h
    intro i
    rw [count_openIds hk, List.map_append, List.count_append]
    show _ + [id].count i + _ + _ = _ + _ + ([id].count i + _)
    cases returned with
    | true =>
      rw [if_pos rfl, count_openIds_set hk]
      show _ + _ + _ + (0 + _) = _
      omega
    | false =>
      rw [if_neg Bool.false_ne_true]
      omega
  | acked k id awaited result hk =>
    have hcount : ∀ i, (openIds (s.tasks.eraseIdx k)).count i = (openIds s.tasks).count i := by
      intro i
      rw [count_openIds hk]
      exact (Nat.zero_add _).symm
    have hledger : s.group.Counts ({ s with tasks := s.tasks.eraseIdx k } : RedisConsumer).ledger :=
      counts_of_tasks h fun i => by rw [hcount i]
    show (if result.executed then s.group.ack id else s.group).Counts _
    split
    · exact hledger.ack id
    · exact hledger

/-! ## What holds in every state -/

/-- Outside `asyncio.gather`, and after a step that adds no queued task. -/
private theorem queuedInGather_of_subset {s s' : RedisConsumer} (h : s.QueuedInGather)
    (htasks : ∀ t ∈ s'.tasks, t.phase = .queued → t ∈ s.tasks)
    (hawait : s'.await = s.await ∨ s.await ≠ .gather) : s'.QueuedInGather := by
  intro t ht hphase hawaited
  have hgather := h t (htasks t ht hphase) hphase hawaited
  rcases hawait with heq | hne
  · rw [heq]
    exact hgather
  · exact absurd hgather hne

/-- A step of a loop that is not in `asyncio.gather` leaves the tasks. -/
private theorem queuedInGather_of_loop {s s' : RedisConsumer} {await : PollAwait}
    (h : s.QueuedInGather) (hawait : s.await = await) (hne : await ≠ .gather)
    (htasks : s'.tasks = s.tasks) : s'.QueuedInGather := by
  apply queuedInGather_of_subset h
  · intro t ht _
    exact htasks ▸ ht
  · exact Or.inr (hawait ▸ hne)

private theorem queuedInGather_raise (s : RedisConsumer) (ids : List Nat) :
    (s.raise ids).QueuedInGather := by
  intro t ht _ hawaited
  obtain ⟨t', -, rfl⟩ := List.mem_map.mp ht
  exact nomatch hawaited

/-- Neither loop takes a turn in `asyncio.gather`. -/
private theorem Turn.ne_gather {s : RedisConsumer} {e : RedisEvent} {id : Nat} {rest : List Nat}
    {await : PollAwait} (h : s.Turn e id rest await) : s.await ≠ .gather := by
  cases h with
  | recover id rest h => rw [h]; exact nofun
  | reclaim result id rest h => rw [h]; exact nofun

private theorem queuedInGather_step {mq : RedisMqService} {s s' : RedisConsumer} {e : RedisEvent}
    (h : s.QueuedInGather) (hstep : s.Transition mq e s') : s'.QueuedInGather := by
  cases hstep with
  | ticked ms => exact h
  | published fields => exact h
  | restarted consumer => exact fun t ht => absurd ht List.not_mem_nil
  | recovered result hawait =>
    apply queuedInGather_of_loop h hawait nofun
    cases result <;> rfl
  | claimed result hawait =>
    apply queuedInGather_of_loop h hawait nofun
    cases result <;> rfl
  | read result hawait =>
    cases result with
    | done =>
      unfold RedisConsumer.read
      simp only
      split
      · exact h
      · exact fun _ _ _ _ => rfl
    | refused => exact h
    | replyLost => exact queuedInGather_of_subset h (fun t ht _ => ht) (Or.inl rfl)
  | gathered hawait hfree =>
    -- `asyncio.gather` has returned, so no task that it waits for is left
    intro t ht _ hawaited
    rw [hfree t ht] at hawaited
    exact nomatch hawaited
  | recoverEnded hawait => exact queuedInGather_of_loop h hawait nofun rfl
  | reclaimEnded result hawait => exact queuedInGather_of_loop h hawait nofun rfl
  | gauged result hawait => exact queuedInGather_of_loop h hawait nofun rfl
  | skipped e id rest await hturn hempty =>
    exact queuedInGather_of_subset h (fun t ht _ => ht) (Or.inr hturn.ne_gather)
  | handled e id rest await hturn hfields hcap =>
    unfold handleMessage
    split
    · refine queuedInGather_of_subset h (fun t ht hphase => ?_) (Or.inr hturn.ne_gather)
      rcases List.mem_append.mp ht with ht | ht
      · exact ht
      · rw [List.mem_singleton.mp ht] at hphase
        exact nomatch hphase
    · exact queuedInGather_raise s _
  | overCap result id rest hawait hfields hcap => exact queuedInGather_of_loop h hawait nofun rfl
  | dropped result id rest hawait =>
    cases result with
    | done => exact queuedInGather_of_loop h hawait nofun rfl
    | refused => exact queuedInGather_raise _ _
    | replyLost => exact queuedInGather_raise _ _
  | started k id awaited hk hparse =>
    refine queuedInGather_of_subset h (fun t ht hphase => ?_) (Or.inl rfl)
    rcases List.mem_or_eq_of_mem_set ht with ht | rfl
    · exact ht
    · exact nomatch hphase
  | startRaised k id awaited hk hparse s' hs' =>
    subst hs'
    split
    · exact queuedInGather_raise _ _
    · exact queuedInGather_of_subset h (fun t ht _ => List.mem_of_mem_eraseIdx ht) (Or.inl rfl)
  | handlerEnded k id awaited returned hk =>
    refine queuedInGather_of_subset h (fun t ht hphase => ?_) (Or.inl rfl)
    cases returned with
    | true =>
      rcases List.mem_or_eq_of_mem_set ht with ht | rfl
      · exact ht
      · exact nomatch hphase
    | false => exact List.mem_of_mem_eraseIdx ht
  | acked k id awaited result hk =>
    exact queuedInGather_of_subset h (fun t ht _ => List.mem_of_mem_eraseIdx ht) (Or.inl rfl)

/-- A task that acknowledges has had its handler return. -/
def AckingReturned (s : RedisConsumer) : Prop :=
  ∀ t ∈ s.tasks, t.phase = .acking → (t.messageId, true) ∈ s.runs

private theorem ackingReturned_of_subset {s s' : RedisConsumer} (h : s.AckingReturned)
    (htasks : ∀ t ∈ s'.tasks, t.phase = .acking → t ∈ s.tasks ∨ (t.messageId, true) ∈ s'.runs)
    (hruns : s.runs ⊆ s'.runs) : s'.AckingReturned := by
  intro t ht hphase
  rcases htasks t ht hphase with ht | hrun
  · exact hruns (h t ht hphase)
  · exact hrun

private theorem ackingReturned_raise {s : RedisConsumer} (h : s.AckingReturned)
    (ids : List Nat) : (s.raise ids).AckingReturned := by
  intro t ht hphase
  obtain ⟨t', ht', rfl⟩ := List.mem_map.mp ht
  exact h t' ht' hphase

private theorem ackingReturned_step {mq : RedisMqService} {s s' : RedisConsumer} {e : RedisEvent}
    (h : s.AckingReturned) (hstep : s.Transition mq e s') : s'.AckingReturned := by
  cases hstep with
  | restarted consumer => exact fun t ht => absurd ht List.not_mem_nil
  | recovered result hawait => cases result <;> exact h
  | claimed result hawait => cases result <;> exact h
  | read result hawait =>
    cases result with
    | done =>
      unfold RedisConsumer.read
      simp only
      split
      · exact h
      · refine ackingReturned_of_subset h (fun t ht hphase => ?_) (List.Subset.refl _)
        rcases List.mem_append.mp ht with ht | ht
        · exact Or.inl ht
        · -- a task that is new has not come to its acknowledgement
          obtain ⟨id, -, rfl⟩ := List.mem_map.mp ht
          exact nomatch hphase
    | refused => exact h
    | replyLost => exact h
  | handled e id rest await hturn hfields hcap =>
    unfold handleMessage
    split
    · refine ackingReturned_of_subset h (fun t ht hphase => ?_) (List.Subset.refl _)
      rcases List.mem_append.mp ht with ht | ht
      · exact Or.inl ht
      · rw [List.mem_singleton.mp ht] at hphase
        exact nomatch hphase
    · exact ackingReturned_raise h _
  | dropped result id rest hawait =>
    cases result with
    | done => exact h
    | refused => exact ackingReturned_raise (s := { s with group := s.group }) h _
    | replyLost => exact ackingReturned_raise (s := { s with group := s.group.ack id }) h _
  | started k id awaited hk hparse =>
    refine ackingReturned_of_subset h (fun t ht hphase => ?_) (List.Subset.refl _)
    rcases List.mem_or_eq_of_mem_set ht with ht | rfl
    · exact Or.inl ht
    · exact nomatch hphase
  | startRaised k id awaited hk hparse s' hs' =>
    have hs : s'.AckingReturned := by
      subst hs'
      exact ackingReturned_of_subset h (fun t ht _ => Or.inl (List.mem_of_mem_eraseIdx ht))
        (List.Subset.refl _)
    split
    · exact ackingReturned_raise hs _
    · exact hs
  | handlerEnded k id awaited returned hk =>
    refine ackingReturned_of_subset h (fun t ht hphase => ?_) (List.subset_append_left _ _)
    cases returned with
    | true =>
      rcases List.mem_or_eq_of_mem_set ht with ht | rfl
      · exact Or.inl ht
      · exact Or.inr (List.mem_append_right _ List.mem_cons_self)
    | false => exact Or.inl (List.mem_of_mem_eraseIdx ht)
  | acked k id awaited result hk =>
    exact ackingReturned_of_subset h (fun t ht _ => Or.inl (List.mem_of_mem_eraseIdx ht))
      (List.Subset.refl _)
  | _ => exact h

private theorem nodup_batch_step {mq : RedisMqService} {s s' : RedisConsumer} {e : RedisEvent}
    (h : s.await.batch.Nodup) (hstep : s.Transition mq e s') : s'.await.batch.Nodup := by
  cases hstep with
  | recovered result hawait =>
    cases result with
    | done => exact s.group.nodup_history _ _
    | refused => exact List.nodup_nil
    | replyLost => exact List.nodup_nil
  | claimed result hawait =>
    cases result with
    | done => exact s.group.nodup_claimable _ _ _
    | refused => exact List.nodup_nil
    | replyLost => exact List.nodup_nil
  | read result hawait =>
    cases result with
    | done =>
      unfold RedisConsumer.read
      simp only
      split
      · exact h
      · exact List.nodup_nil
    | refused => exact h
    | replyLost => exact h
  | skipped e id rest await hturn hempty =>
    obtain ⟨hbatch, hrest⟩ := hturn.batch
    -- what is left of the batch is its tail
    rw [hbatch, List.nodup_cons] at h
    exact hrest ▸ h.2
  | handled e id rest await hturn hfields hcap =>
    obtain ⟨hbatch, hrest⟩ := hturn.batch
    rw [hbatch, List.nodup_cons] at h
    unfold handleMessage
    split
    · exact hrest ▸ h.2
    · exact List.nodup_nil
  | overCap result id rest hawait hfields hcap =>
    rw [hawait] at h
    exact h
  | dropped result id rest hawait =>
    rw [hawait] at h
    cases result with
    | done => exact (List.nodup_cons.mp h).2
    | refused => exact List.nodup_nil
    | replyLost => exact List.nodup_nil
  | startRaised k id awaited hk hparse s' hs' =>
    subst hs'
    split
    · exact List.nodup_nil
    · exact h
  | restarted consumer => exact List.nodup_nil
  | recoverEnded hawait => exact List.nodup_nil
  | gathered hawait hfree => exact List.nodup_nil
  | reclaimEnded result hawait => exact List.nodup_nil
  | gauged result hawait => exact List.nodup_nil
  | _ => exact h

/-- The invariant of the consumer. -/
structure Booked (s : RedisConsumer) : Prop where
  counts : s.group.Counts s.ledger
  queued : s.QueuedInGather
  acking : s.AckingReturned
  nodup : s.await.batch.Nodup

theorem booked_start (consumer : String) : (start consumer).Booked where
  counts := .empty
  queued := fun _ ht => absurd ht List.not_mem_nil
  acking := fun _ ht => absurd ht List.not_mem_nil
  nodup := List.nodup_nil

theorem booked_step (mq : RedisMqService) (s : RedisConsumer) (e : RedisEvent)
    (s' : RedisConsumer) (h : s.Booked) (hstep : s.step mq e = some s') : s'.Booked := by
  have ht := transition_of_step hstep
  exact {
    counts := counts_step h.counts h.queued ht
    queued := queuedInGather_step h.queued ht
    acking := ackingReturned_step h.acking ht
    nodup := nodup_batch_step h.nodup ht }

/-- It holds in every state of every run. -/
theorem booked_of_exec {mq : RedisMqService} {consumer : String} {es : List RedisEvent}
    {s : RedisConsumer} (hrun : exec (step mq) (start consumer) es = some s) : s.Booked :=
  exec_invariant (booked_step mq) (booked_start consumer) hrun

/-- `json.loads` on the two payloads of the samples: `{}` parses and a lone brace does not. -/
def sampleMq : RedisMqService where
  loads := fun text => text = "\x7b\x7d"

/-- An entry whose payload parses. -/
def goodEntry : EntryFields := [("payload", "\x7b\x7d")]

/-- An entry whose payload does not. -/
def badEntry : EntryFields := [("payload", "\x7b")]

end RedisConsumer

end Inherent
