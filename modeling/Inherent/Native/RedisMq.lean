import Inherent.ForStd.StreamGroup

/-!
# `RedisMQService`

The poll loop of one subscription: `_process_pending` after a start, then `_poll_loop` with
`_reclaim_pending` at the end of each batch.  A crash or a stop of the process may come at any
point, and any call of Redis may fail before or after Redis has executed it.  The semaphore
of `_handle_message_bounded` only delays a task, so a task may start at any time.
-/

namespace Inherent

/-- The fields of an entry, as the items of the `dict` that the client returns. -/
abbrev EntryFields := List (String × String)

/-- The service: its settings, and whether `json.loads` accepts a text. -/
structure RedisMqService where
  loads : String → Bool
  reclaimMinIdleMs : Nat := 30000
  maxDeliveries : Nat := 5

/-- `json.loads(fields.get("payload", "{}"))` does not raise. -/
def RedisMqService.parses (mq : RedisMqService) (fields : EntryFields) : Bool :=
  mq.loads ((fields.lookup "payload").getD "{}")

/-- How a call of Redis ends. -/
inductive RedisCall where
  | done
  /-- It raises and Redis has not executed it. -/
  | refused
  /-- Redis has executed it, and it raises because its reply is lost. -/
  | replyLost
  deriving DecidableEq, Repr

/-- Redis has executed the call. -/
def RedisCall.executed : RedisCall → Bool
  | .refused => false
  | _ => true

/-- How far a call of `_handle_message` is. -/
inductive HandlerPhase where
  /-- `_handle_message_bounded` waits for the semaphore. -/
  | queued
  /-- The handler runs. -/
  | handling
  /-- The handler has returned; `XACK` is to come. -/
  | acking
  deriving DecidableEq, Repr

/-- A call of `_handle_message`; `awaited` says whether the loop is waiting for it. -/
structure HandlerTask where
  messageId : Nat
  phase : HandlerPhase
  awaited : Bool
  deriving DecidableEq, Repr

/-- The `await` at which the loop is suspended. -/
inductive PollAwait where
  /-- `XREADGROUP` from `0` of `_process_pending`. -/
  | recover
  /-- The `for` of `_process_pending`, with the entries to come. -/
  | recovering (rest : List Nat)
  /-- `XREADGROUP` from `>` of `_poll_loop`. -/
  | read
  /-- `asyncio.gather`. -/
  | gather
  /-- `XAUTOCLAIM` of `_reclaim_pending`. -/
  | claim
  /-- The `for` of `_reclaim_pending`, with the entries to come. -/
  | reclaiming (rest : List Nat)
  /-- Its `XACK` of an entry over the delivery cap. -/
  | drop (messageId : Nat) (rest : List Nat)
  /-- `_update_pending_gauge`. -/
  | gauge
  deriving DecidableEq, Repr

/-- The entries that a batch of the loop still holds. -/
def PollAwait.batch : PollAwait → List Nat
  | .recovering rest => rest
  | .reclaiming rest => rest
  | .drop messageId rest => messageId :: rest
  | _ => []

/-- The stream and its group, and the process that consumes it.  `runs` and `lost` are
    history: the runs of the handler that have ended, with whether they returned, and the
    deliveries that ended without a run of the handler. -/
structure RedisConsumer where
  now : Nat := 0
  group : StreamGroup EntryFields := .empty
  consumer : String
  await : PollAwait := .recover
  tasks : List HandlerTask := []
  runs : List (Nat × Bool) := []
  lost : List Nat := []

/-- What can happen. -/
inductive RedisEvent where
  /-- Time passes. -/
  | tick (ms : Nat)
  /-- `XADD` by any producer. -/
  | publish (fields : EntryFields)
  /-- The process stops, and another one subscribes under the name `consumer`. -/
  | restart (consumer : String)
  | recover (result : RedisCall)
  /-- The next turn of the `for` of `_process_pending`. -/
  | recoverNext
  | read (result : RedisCall)
  /-- The `k`-th task gets the semaphore. -/
  | startTask (k : Nat)
  /-- The handler of the `k`-th task returns or raises. -/
  | handlerDone (k : Nat) (returned : Bool)
  /-- The `XACK` of the `k`-th task. -/
  | ackTask (k : Nat) (result : RedisCall)
  /-- `asyncio.gather` returns. -/
  | gathered
  | claim (result : RedisCall)
  /-- The next turn of the `for` of `_reclaim_pending`, with its `XPENDING`. -/
  | reclaimNext (result : RedisCall)
  | drop (result : RedisCall)
  | gauge (result : RedisCall)
  deriving DecidableEq, Repr

namespace RedisConsumer

/-- The fields of an entry; none when it is no longer in the stream. -/
def fields (s : RedisConsumer) (messageId : Nat) : EntryFields :=
  (s.group.entries[messageId]?).getD []

/-- The deliveries that may still lead to a run of the handler. -/
def opened (s : RedisConsumer) : List Nat :=
  (s.tasks.filter (·.phase ≠ .acking)).map (·.messageId) ++ s.await.batch

/-- The loop waits for no task. -/
def Free (s : RedisConsumer) : Prop := ∀ t ∈ s.tasks, t.awaited = false

instance (s : RedisConsumer) : Decidable s.Free :=
  inferInstanceAs (Decidable (∀ t, t ∈ _ → _))

/-- `_delivery_count`. -/
def deliveryCount (s : RedisConsumer) (messageId : Nat) : RedisCall → Nat
  | .done => (s.group.deliveries messageId).getD 1
  | _ => 1

/-- An exception ends the batch: the deliveries `ids` do not come to a run of the handler,
    and the loop no longer waits for the tasks. -/
def raise (s : RedisConsumer) (ids : List Nat) : RedisConsumer :=
  { s with
    await := .read
    tasks := s.tasks.map fun t => { t with awaited := false }
    lost := s.lost ++ ids }

/-- `_handle_message` in a `for` over a batch: `json.loads` may raise. -/
def handleMessage (mq : RedisMqService) (s : RedisConsumer) (messageId : Nat) (rest : List Nat)
    (await : PollAwait) : RedisConsumer :=
  if mq.parses (s.fields messageId) then
    { s with
      await := await
      tasks := s.tasks ++ [⟨messageId, .handling, true⟩] }
  else s.raise (messageId :: rest)

/-- A call that delivers the entries `ids` ends; the loop goes on at `await`, or at `onError`
    when the call raises. -/
def receive (s : RedisConsumer) (ids : List Nat) (await onError : PollAwait) :
    RedisCall → RedisConsumer
  | .done => { s with
      group := s.group.redeliver ids s.consumer s.now
      await := await }
  | .refused => { s with await := onError }
  | .replyLost => { s with
      group := s.group.redeliver ids s.consumer s.now
      await := onError
      lost := s.lost ++ ids }

/-- A turn of the `for` of `_process_pending`. -/
def recoverNext (mq : RedisMqService) (s : RedisConsumer) : Option RedisConsumer :=
  match s.await with
  | .recovering [] => some { s with await := .read }
  | .recovering (messageId :: rest) =>
    if s.fields messageId = [] then
      some { s with
        await := .recovering rest
        lost := s.lost ++ [messageId] }
    else some (s.handleMessage mq messageId rest (.recovering rest))
  | _ => none

/-- `XREADGROUP` from `>`: a read that returns nothing, or raises, polls again. -/
def read (s : RedisConsumer) (result : RedisCall) : RedisConsumer :=
  let ids := s.group.undelivered 10
  match result with
  | .done =>
    if ids = [] then s
    else { s with
      group := s.group.readNew s.consumer s.now 10
      await := .gather
      tasks := s.tasks ++ ids.map (⟨·, .queued, true⟩) }
  | .refused => s
  | .replyLost => { s with
      group := s.group.readNew s.consumer s.now 10
      lost := s.lost ++ ids }

/-- The `k`-th task parses its payload; when that raises, so does the `gather` that waits
    for it. -/
def startTask (mq : RedisMqService) (s : RedisConsumer) (k : Nat) : Option RedisConsumer :=
  match s.tasks[k]? with
  | some ⟨messageId, .queued, awaited⟩ =>
    if mq.parses (s.fields messageId) then
      some { s with tasks := s.tasks.set k ⟨messageId, .handling, awaited⟩ }
    else
      let s' := { s with tasks := s.tasks.eraseIdx k }
      some (if awaited then s'.raise [messageId] else { s' with lost := s.lost ++ [messageId] })
  | _ => none

/-- The handler of the `k`-th task ends; its exception is only logged. -/
def handlerDone (s : RedisConsumer) (k : Nat) (returned : Bool) : Option RedisConsumer :=
  match s.tasks[k]? with
  | some ⟨messageId, .handling, awaited⟩ =>
    some { s with
      tasks := if returned then s.tasks.set k ⟨messageId, .acking, awaited⟩
        else s.tasks.eraseIdx k
      runs := s.runs ++ [(messageId, returned)] }
  | _ => none

/-- The `XACK` of the `k`-th task; its exception is only logged. -/
def ackTask (s : RedisConsumer) (k : Nat) (result : RedisCall) : Option RedisConsumer :=
  match s.tasks[k]? with
  | some ⟨messageId, .acking, _⟩ =>
    some { s with
      group := if result.executed then s.group.ack messageId else s.group
      tasks := s.tasks.eraseIdx k }
  | _ => none

/-- A turn of the `for` of `_reclaim_pending`. -/
def reclaimNext (mq : RedisMqService) (s : RedisConsumer) (result : RedisCall) :
    Option RedisConsumer :=
  match s.await with
  | .reclaiming [] => some { s with await := .gauge }
  | .reclaiming (messageId :: rest) =>
    if s.fields messageId = [] then
      some { s with
        await := .reclaiming rest
        lost := s.lost ++ [messageId] }
    else if mq.maxDeliveries < s.deliveryCount messageId result then
      some { s with await := .drop messageId rest }
    else some (s.handleMessage mq messageId rest (.reclaiming rest))
  | _ => none

/-- The `XACK` of an entry over the delivery cap. -/
def dropMessage (s : RedisConsumer) (messageId : Nat) (rest : List Nat) (result : RedisCall) :
    RedisConsumer :=
  let s' := { s with group := if result.executed then s.group.ack messageId else s.group }
  match result with
  | .done => { s' with
      await := .reclaiming rest
      lost := s.lost ++ [messageId] }
  | _ => s'.raise (messageId :: rest)

/-- One event. -/
def step (mq : RedisMqService) (s : RedisConsumer) : RedisEvent → Option RedisConsumer
  | .tick ms => some { s with now := s.now + ms }
  | .publish fields => some { s with group := s.group.add fields }
  | .restart consumer =>
    some { s with
      consumer := consumer
      await := .recover
      tasks := []
      lost := s.lost ++ s.opened }
  | .recover result =>
    if s.await = .recover then
      let ids := s.group.history s.consumer 100
      some (s.receive ids (.recovering ids) .read result)
    else none
  | .recoverNext => if s.Free then s.recoverNext mq else none
  | .read result => if s.await = .read then some (s.read result) else none
  | .startTask k => s.startTask mq k
  | .handlerDone k returned => s.handlerDone k returned
  | .ackTask k result => s.ackTask k result
  | .gathered => if s.await = .gather ∧ s.Free then some { s with await := .claim } else none
  | .claim result =>
    if s.await = .claim then
      let ids := s.group.claimable s.now mq.reclaimMinIdleMs 20
      -- a failure is logged and `_reclaim_pending` returns
      some (s.receive ids (.reclaiming ids) .gauge result)
    else none
  | .reclaimNext result => if s.Free then s.reclaimNext mq result else none
  | .drop result =>
    match s.await with
    | .drop messageId rest => some (s.dropMessage messageId rest result)
    | _ => none
  | .gauge _ => if s.await = .gauge then some { s with await := .read } else none

end RedisConsumer

end Inherent
