import Inherent.ForStd.IdempotentSteps
import Inherent.Native.ReuseRecording

/-!
# Reuse counts are numbers of distinct events

The unique index of `chunk_reuse_events` decides whether a call of `record_chunk_reuse` counts.  The
event and the count are written by one transaction, so a count is the number of the events on its
chunk in every state, and the events are a set, whatever the order of the calls is, whichever of
them fail, and how often they are repeated.  Concurrent calls are transactions, and stand in some
order.
-/

namespace Inherent

open StatefulProgram (exec exec_bind exec_pure exec_throw exec_get exec_set exec_modify)

/-! ## Sets of events -/

/-- What a set of events says of a chunk: the documents that reuse it, with what. -/
def reusesOf (events : Finset ChunkReuseEvent) (id : Nat) : Finset (String × Sha256) :=
  (events.filter fun e => e.sourceChunkId = id).image fun e =>
    (e.reusingDocumentId, e.reusingChunkContentHash)

theorem mem_reusesOf {events : Finset ChunkReuseEvent} {id : Nat} {r : String × Sha256} :
    r ∈ reusesOf events id ↔ ⟨id, r.1, r.2⟩ ∈ events := by
  simp only [reusesOf, Finset.mem_image, Finset.mem_filter]
  constructor
  · rintro ⟨e, ⟨he, rfl⟩, rfl⟩
    exact he
  · intro h
    exact ⟨_, ⟨h, rfl⟩, rfl⟩

/-- A new event is one more reuse of its chunk. -/
theorem card_reusesOf_insert {events : Finset ChunkReuseEvent} {e : ChunkReuseEvent}
    (he : e ∉ events) (id : Nat) : (reusesOf (insert e events) id).card =
      (reusesOf events id).card + if e.sourceChunkId = id then 1 else 0 := by
  by_cases hid : e.sourceChunkId = id
  · -- the document has not reused the chunk with this content
    have hnew : (e.reusingDocumentId, e.reusingChunkContentHash) ∉ reusesOf events id := by
      rw [mem_reusesOf, ← hid]
      exact he
    have hinsert : reusesOf (insert e events) id =
        insert (e.reusingDocumentId, e.reusingChunkContentHash) (reusesOf events id) := by
      rw [reusesOf, Finset.filter_insert, if_pos hid, Finset.image_insert, reusesOf]
    rw [hinsert, Finset.card_insert_of_notMem hnew, if_pos hid]
  · rw [reusesOf, Finset.filter_insert, if_neg hid, if_neg hid, Nat.add_zero, reusesOf]

/-- Entering events in a set does nothing the second time, and the order does not matter. -/
theorem steps_insert : IdempotentSteps.Steps
    fun (e : ChunkReuseEvent) (events : Finset ChunkReuseEvent) => insert e events where
  idempotent e events := Finset.insert_idem e events
  commute e e' events := Finset.insert_comm e e' events

theorem run_insert (es : List ChunkReuseEvent) (events : Finset ChunkReuseEvent) :
    IdempotentSteps.run (fun e events => insert e events) es events = events ∪ es.toFinset := by
  induction es generalizing events with
  | nil => simp
  | cons e es ih =>
    rw [IdempotentSteps.run_cons, ih, List.toFinset_cons, Finset.insert_union, Finset.union_insert]

/-! ## One call -/

/-- Nothing fails that would keep the call from counting a new event. -/
def RecordAttempt.TakesEffect (a : RecordAttempt) : Prop :=
  a.connected = true ∧ a.insertFails = false ∧ a.updateFails = false ∧ a.commit ≠ .failed

instance (a : RecordAttempt) : Decidable a.TakesEffect :=
  inferInstanceAs (Decidable (_ ∧ _ ∧ _ ∧ _))

namespace ReuseTables

/-- The events of the ledger. -/
def ledger (t : ReuseTables) : Finset ChunkReuseEvent :=
  (t.events.rows.map ReuseEventRow.event).toFinset

theorem mem_ledger {t : ReuseTables} {e : ChunkReuseEvent} : e ∈ t.ledger ↔ t.events.Holds e := by
  rw [ledger, List.mem_toFinset, UniqueTable.Holds]

/-- Each count is the number of the chunk's reuses. -/
def Counted (t : ReuseTables) : Prop :=
  ∀ c ∈ t.chunks.rows, c.reuseCount = (reusesOf t.ledger c.id).card

/-- The tables with a new event and its count. -/
def counted (t : ReuseTables) (a : RecordAttempt) (h : t.chunks.Holds a.event.sourceChunkId) :
    ReuseTables :=
  (t.insertEvent a.row h).increment a.event.sourceChunkId a.now

/-- Tables without events, and without counts. -/
theorem counted_of_fresh {t : ReuseTables} (hcounts : ∀ c ∈ t.chunks.rows, c.reuseCount = 0)
    (hevents : t.events.rows = []) : t.Counted := by
  intro c hc
  rw [hcounts c hc, ledger, hevents]
  rfl

end ReuseTables

open ReuseTables

/-- How a call ends, and what it leaves. -/
inductive RecordEnds (a : RecordAttempt) (t : ReuseTables) :
    Except RecordError (Option Nat) × ReuseTables → Prop
  /-- The ledger has the event. -/
  | held (result : Except RecordError (Option Nat)) (hheld : a.event ∈ t.ledger)
    (hresult : ∀ r, result = .ok r → r = none) : RecordEnds a t (result, t)
  /-- The event is new, and the call raises before it counts. -/
  | failed (e : RecordError) (hnew : a.event ∉ t.ledger)
    (hfails : ¬ (a.TakesEffect ∧ t.chunks.Holds a.event.sourceChunkId)) :
    RecordEnds a t (.error e, t)
  /-- The event is new, and it is counted. -/
  | counted (result : Except RecordError (Option Nat)) (c : CountedChunk)
    (hnew : a.event ∉ t.ledger) (heffect : a.TakesEffect) (hrow : t.chunks.find? a.event.sourceChunkId = some c)
    (hchunk : t.chunks.Holds a.event.sourceChunkId)
    (hresult : ∀ r, result = .ok r → r = some (c.reuseCount + 1)) :
    RecordEnds a t (result, t.counted a hchunk)

/-- The insert, by what the tables hold. -/
theorem exec_insertReuseEvent (e : ReuseEventRow) (t : ReuseTables) :
    exec (insertReuseEvent e) t =
      if t.events.Holds e.event then (.ok 0, t)
      else if h : t.chunks.Holds e.event.sourceChunkId then (.ok 1, t.insertEvent e h)
      else (.error .foreignKey, t) := by
  rw [insertReuseEvent, exec_bind, exec_get]
  dsimp only
  -- the conflict is looked for before the foreign key
  by_cases hheld : t.events.Holds e.event
  · rw [if_pos hheld, if_pos hheld, exec_pure]
  · rw [if_neg hheld, if_neg hheld]
    by_cases hchunk : t.chunks.Holds e.event.sourceChunkId
    · rw [dif_pos hchunk, dif_pos hchunk, exec_bind, exec_set]
      dsimp only
      rw [exec_pure]
    · rw [dif_neg hchunk, dif_neg hchunk, exec_throw]

/-- The update returns the new count of the row. -/
theorem exec_incrementReuseCount {t : ReuseTables} {id : Nat} {now : Timestamp} {c : CountedChunk}
    (h : t.chunks.find? id = some c) : exec (incrementReuseCount id now) t =
      (.ok (some (c.reuseCount + 1)), t.increment id now) := by
  have hid : c.id = id := (UniqueTable.find?_eq_some.mp h).2
  have hrow : (t.increment id now).chunks.find? id = some (incrementRow id now c) := by
    rw [increment, UniqueTable.find?_update (id_incrementRow id now), h, Option.map_some]
  rw [incrementReuseCount, exec_bind, exec_modify]
  simp only [exec_bind, exec_get, exec_pure, hrow, Option.map_some]
  rw [incrementRow, if_pos hid]

/-- A body that raises before its insert. -/
theorem exec_body_of_insertFails {a : RecordAttempt} (h : a.insertFails = true) (t : ReuseTables) :
    exec a.body t = (.error .connection, t) := by
  rw [RecordAttempt.body, if_pos h, exec_bind, exec_throw]

/-- A body goes on with the result of its insert. -/
theorem exec_body {a : RecordAttempt} (h : a.insertFails = false) (t : ReuseTables) :
    exec a.body t = match exec (insertReuseEvent a.row) t with
      | (.error e, t') => (.error e, t')
      | (.ok rowcount, t') =>
        if rowcount = 0 then (.ok none, t')
        else if a.updateFails = true then (.error .connection, t')
        else exec (incrementReuseCount a.event.sourceChunkId a.now) t' := by
  rw [RecordAttempt.body, if_neg (by simp [h])]
  dsimp only
  rw [exec_bind]
  cases hinsert : exec (insertReuseEvent a.row) t with
  | mk result t' =>
    cases result with
    | error e => rfl
    | ok rowcount =>
      dsimp only
      by_cases hzero : rowcount = 0
      · rw [if_pos hzero, if_pos hzero, exec_pure]
      · rw [if_neg hzero, if_neg hzero]
        by_cases hupdate : a.updateFails = true
        · rw [if_pos hupdate, if_pos hupdate, exec_bind, exec_throw]
        · rw [if_neg hupdate, if_neg hupdate]

/-- A transaction whose body raises leaves the tables as they are. -/
theorem getSession_of_error {α : Type} {body : Session α} {commit : CommitEnd} {t t' : ReuseTables}
    {e : RecordError} (h : exec body t = (.error e, t')) :
    RecordAttempt.getSession body commit t = (.error e, t) := by
  rw [RecordAttempt.getSession, h]

/-- A transaction whose body returns leaves what the body leaves, unless the commit fails. -/
theorem getSession_of_ok {α : Type} {body : Session α} {t t' : ReuseTables} {r : α}
    (commit : CommitEnd) (h : exec body t = (.ok r, t')) :
    (commit = .failed ∧ RecordAttempt.getSession body commit t = (.error .connection, t)) ∨
      (commit ≠ .failed ∧ ∃ result, (∀ r', result = .ok r' → r' = r) ∧
        RecordAttempt.getSession body commit t = (result, t')) := by
  rw [RecordAttempt.getSession, h]
  cases commit with
  | acknowledged =>
    refine .inr ⟨by simp, .ok r, fun r' hr => ?_, rfl⟩
    cases hr
    rfl
  | failed => exact .inl ⟨rfl, rfl⟩
  | unacknowledged =>
    refine .inr ⟨by simp, .error .connection, fun r' hr => ?_, rfl⟩
    cases hr

/-- How the body of a call ends, before its transaction does. -/
inductive BodyEnds (a : RecordAttempt) (t : ReuseTables) :
    Except RecordError (Option Nat) × ReuseTables → Prop
  /-- The insert finds the event. -/
  | held (hheld : a.event ∈ t.ledger) : BodyEnds a t (.ok none, t)
  /-- A statement fails, or the chunk is not there. -/
  | raised (e : RecordError) (t' : ReuseTables)
    (hfails : a.insertFails = true ∨ a.updateFails = true ∨
      ¬ t.chunks.Holds a.event.sourceChunkId) : BodyEnds a t (.error e, t')
  /-- The event is inserted, and the update counts it. -/
  | counted (c : CountedChunk) (hnew : a.event ∉ t.ledger) (hinsert : a.insertFails = false)
    (hupdate : a.updateFails = false) (hrow : t.chunks.find? a.event.sourceChunkId = some c)
    (hchunk : t.chunks.Holds a.event.sourceChunkId) :
    BodyEnds a t (.ok (some (c.reuseCount + 1)), t.counted a hchunk)

theorem bodyEnds (a : RecordAttempt) (t : ReuseTables) : BodyEnds a t (exec a.body t) := by
  cases hinsert : a.insertFails with
  | true =>
    rw [exec_body_of_insertFails hinsert]
    exact .raised _ _ (.inl hinsert)
  | false =>
    rw [exec_body hinsert, exec_insertReuseEvent]
    by_cases hheld : t.events.Holds a.row.event
    · rw [if_pos hheld]
      exact .held (mem_ledger.mpr hheld)
    · rw [if_neg hheld]
      by_cases hchunk : t.chunks.Holds a.row.event.sourceChunkId
      · rw [dif_pos hchunk]
        dsimp only
        rw [if_neg Nat.one_ne_zero]
        by_cases hupdate : a.updateFails = true
        · rw [if_pos hupdate]
          exact .raised _ _ (.inr (.inl hupdate))
        · -- the row that the event references is there to be counted
          obtain ⟨c, hrow⟩ := UniqueTable.exists_find? hchunk
          have hrow' :
              (t.insertEvent a.row hchunk).chunks.find? a.event.sourceChunkId = some c := hrow
          rw [if_neg hupdate, exec_incrementReuseCount hrow']
          exact .counted c (fun h => hheld (mem_ledger.mp h)) hinsert (by simpa using hupdate) hrow
            hchunk
      · rw [dif_neg hchunk]
        exact .raised _ _ (.inr (.inr hchunk))

/-- A call that raises and counts nothing. -/
theorem RecordEnds.of_not_counts {a : RecordAttempt} {t : ReuseTables} (e : RecordError)
    (h : ¬ (a.TakesEffect ∧ t.chunks.Holds a.event.sourceChunkId)) :
    RecordEnds a t (.error e, t) := by
  by_cases hheld : a.event ∈ t.ledger
  · exact .held _ hheld fun r hr => by cases hr
  · exact .failed e hheld h

/-- Every call ends in one of the three ways. -/
theorem recordEnds (a : RecordAttempt) (t : ReuseTables) :
    RecordEnds a t (a.recordChunkReuse t) := by
  unfold RecordAttempt.recordChunkReuse
  by_cases hconnected : a.connected = true
  case neg =>
    rw [if_neg hconnected]
    exact .of_not_counts _ fun h => hconnected h.1.1
  rw [if_pos hconnected]
  have hends := bodyEnds a t
  generalize hbody : exec a.body t = out at hends
  cases hends with
  | held hheld =>
    -- nothing is inserted, and nothing is left to commit
    rcases getSession_of_ok a.commit hbody with ⟨-, hend⟩ | ⟨-, result, hresult, hend⟩
    · rw [hend]
      exact .held _ hheld fun r hr => by cases hr
    · rw [hend]
      exact .held _ hheld hresult
  | raised e t' hfails =>
    rw [getSession_of_error hbody]
    refine .of_not_counts e ?_
    rintro ⟨⟨-, hinsert, hupdate, -⟩, hchunk⟩
    rcases hfails with h | h | h
    · rw [hinsert] at h
      cases h
    · rw [hupdate] at h
      cases h
    · exact h hchunk
  | counted c hnew hinsert hupdate hrow hchunk =>
    -- insert and update are committed together or not at all
    rcases getSession_of_ok a.commit hbody with ⟨hfailed, hend⟩ | ⟨hcommit, result, hresult, hend⟩
    · rw [hend]
      exact .of_not_counts _ fun h => h.1.2.2.2 hfailed
    · rw [hend]
      exact .counted result c hnew ⟨hconnected, hinsert, hupdate, hcommit⟩ hrow hchunk hresult

/-! ## What a call leaves -/

namespace RecordAttempt

variable {a b : RecordAttempt} {t : ReuseTables}

theorem holds_counted (h : t.chunks.Holds a.event.sourceChunkId) (id : Nat) :
    (t.counted a h).chunks.Holds id ↔ t.chunks.Holds id := by
  have hkeys : (t.counted a h).chunks.rows.map CountedChunk.id =
      t.chunks.rows.map CountedChunk.id := by
    show (t.chunks.rows.map _).map CountedChunk.id = _
    rw [List.map_map]
    exact List.map_congr_left fun c _ => id_incrementRow _ _ c
  rw [UniqueTable.Holds, hkeys, UniqueTable.Holds]

theorem ledger_counted (hnew : a.event ∉ t.ledger) (h : t.chunks.Holds a.event.sourceChunkId) :
    (t.counted a h).ledger = insert a.event t.ledger := by
  have hheld : ¬ t.events.Holds a.row.event := fun hheld => hnew (mem_ledger.mpr hheld)
  have hrows : (t.counted a h).events.rows = t.events.rows ++ [a.row] :=
    UniqueTable.rows_insertNew_of_not_holds hheld
  ext e
  rw [ledger, hrows, List.map_append, List.toFinset_append, Finset.mem_union, Finset.mem_insert,
    ledger, or_comm]
  simp [row]

/-- No call adds a chunk or takes one away. -/
theorem holds_recordChunkReuse (a : RecordAttempt) (t : ReuseTables) (id : Nat) :
    (a.recordChunkReuse t).2.chunks.Holds id ↔ t.chunks.Holds id := by
  have hends := recordEnds a t
  generalize a.recordChunkReuse t = out at hends ⊢
  cases hends with
  | held result hheld hresult => exact Iff.rfl
  | failed e hnew hfails => exact Iff.rfl
  | counted result c hnew heffect hrow hchunk hresult => exact holds_counted hchunk id

/-- A call enters its event, if it takes effect and there is the chunk. -/
theorem ledger_recordChunkReuse (a : RecordAttempt) (t : ReuseTables) :
    (a.recordChunkReuse t).2.ledger =
      if a.TakesEffect ∧ t.chunks.Holds a.event.sourceChunkId then insert a.event t.ledger
      else t.ledger := by
  have hends := recordEnds a t
  generalize a.recordChunkReuse t = out at hends ⊢
  cases hends with
  | held result hheld hresult =>
    rw [Finset.insert_eq_of_mem hheld, ite_self]
  | failed e hnew hfails => rw [if_neg hfails]
  | counted result c hnew heffect hrow hchunk hresult =>
    rw [if_pos ⟨heffect, hchunk⟩, ledger_counted hnew hchunk]

/-- The counts stay numbers of events. -/
theorem counted_recordChunkReuse (a : RecordAttempt) (ht : t.Counted) :
    (a.recordChunkReuse t).2.Counted := by
  have hends := recordEnds a t
  generalize a.recordChunkReuse t = out at hends ⊢
  cases hends with
  | held result hheld hresult => exact ht
  | failed e hnew hfails => exact ht
  | counted result c hnew heffect hrow hchunk hresult =>
    intro d hd
    -- the chunk of the event has one reuse more, and its count is one more
    obtain ⟨d, hmem, rfl⟩ := List.mem_map.mp hd
    rw [ledger_counted hnew hchunk, id_incrementRow, card_reusesOf_insert hnew, ← ht d hmem,
      incrementRow]
    by_cases hid : d.id = a.event.sourceChunkId
    · rw [if_pos hid, if_pos hid.symm]
    · rw [if_neg hid, if_neg (Ne.symm hid), Nat.add_zero]

/-- A call whose event the ledger has, or whose chunk is not there, changes nothing. -/
theorem recordChunkReuse_of_settled (a : RecordAttempt)
    (h : a.event ∈ t.ledger ∨ ¬ t.chunks.Holds a.event.sourceChunkId) :
    (a.recordChunkReuse t).2 = t := by
  have hends := recordEnds a t
  generalize a.recordChunkReuse t = out at hends ⊢
  cases hends with
  | held result hheld hresult => rfl
  | failed e hnew hfails => rfl
  | counted result c hnew heffect hrow hchunk hresult =>
    cases h with
    | inl hmem => exact absurd hmem hnew
    | inr hgone => exact absurd hchunk hgone

/-- An event that the ledger has is no news, whatever else the call says and however it ends. -/
theorem recordChunkReuse_of_mem (h : a.event ∈ t.ledger) {r : Option Nat}
    (hr : (a.recordChunkReuse t).1 = .ok r) : r = none := by
  have hends := recordEnds a t
  generalize a.recordChunkReuse t = out at hends hr
  cases hends with
  | held result hheld hresult => exact hresult r hr
  | failed e hnew hfails => cases hr
  | counted result c hnew heffect hrow hchunk hresult => exact absurd h hnew

/-- A new event that is counted is reported with its count. -/
theorem recordChunkReuse_of_notMem (ht : t.Counted) (h : a.event ∉ t.ledger) {r : Option Nat}
    (hr : (a.recordChunkReuse t).1 = .ok r) :
    a.TakesEffect ∧ t.chunks.Holds a.event.sourceChunkId ∧
      r = some (reusesOf (a.recordChunkReuse t).2.ledger a.event.sourceChunkId).card := by
  have hends := recordEnds a t
  generalize a.recordChunkReuse t = out at hends hr ⊢
  cases hends with
  | held result hheld hresult => exact absurd hheld h
  | failed e hnew hfails => cases hr
  | counted result c hnew heffect hrow hchunk hresult =>
    obtain ⟨hmem, hid⟩ := UniqueTable.find?_eq_some.mp hrow
    refine ⟨heffect, hchunk, ?_⟩
    rw [hresult r hr, ledger_counted hnew hchunk, card_reusesOf_insert hnew, if_pos rfl, ht c hmem,
      hid]

/-- In counted tables a call that returns reports `none` for the events that the ledger has. -/
theorem recordChunkReuse_eq_none_iff (ht : t.Counted) {r : Option Nat}
    (hr : (a.recordChunkReuse t).1 = .ok r) : r = none ↔ a.event ∈ t.ledger := by
  constructor
  · intro hnone
    by_contra hnew
    have hsome := (recordChunkReuse_of_notMem ht hnew hr).2.2
    rw [hnone] at hsome
    cases hsome
  · intro hmem
    exact recordChunkReuse_of_mem hmem hr

/-- A call that returns has its event in the ledger. -/
theorem mem_ledger_of_returned {r : Option Nat} (hr : (a.recordChunkReuse t).1 = .ok r) :
    a.event ∈ (a.recordChunkReuse t).2.ledger := by
  have hends := recordEnds a t
  generalize a.recordChunkReuse t = out at hends hr ⊢
  cases hends with
  | held result hheld hresult => exact hheld
  | failed e hnew hfails => cases hr
  | counted result c hnew heffect hrow hchunk hresult =>
    rw [ledger_counted hnew hchunk]
    exact Finset.mem_insert_self _ _

end RecordAttempt

/-! ## Runs -/

namespace ReuseTables

variable {t : ReuseTables}

@[simp] theorem recordAll_nil (t : ReuseTables) : t.recordAll [] = t := rfl

@[simp] theorem recordAll_cons (t : ReuseTables) (a : RecordAttempt)
    (history : List RecordAttempt) :
    t.recordAll (a :: history) = (a.recordChunkReuse t).2.recordAll history := rfl

theorem recordAll_append (t : ReuseTables) (before after : List RecordAttempt) :
    t.recordAll (before ++ after) = (t.recordAll before).recordAll after := List.foldl_append

theorem holds_recordAll (t : ReuseTables) (history : List RecordAttempt) (id : Nat) :
    (t.recordAll history).chunks.Holds id ↔ t.chunks.Holds id := by
  induction history generalizing t with
  | nil => rfl
  | cons a history ih => rw [recordAll_cons, ih, RecordAttempt.holds_recordChunkReuse]

theorem counted_recordAll (ht : t.Counted) (history : List RecordAttempt) :
    (t.recordAll history).Counted := by
  induction history generalizing t with
  | nil => exact ht
  | cons a history ih => exact ih (a.counted_recordChunkReuse ht)

/-- The events that the calls enter, in order. -/
def entered (t : ReuseTables) (history : List RecordAttempt) : List ChunkReuseEvent :=
  (history.filter fun a => a.TakesEffect ∧ t.chunks.Holds a.event.sourceChunkId).map
    fun a => a.event

theorem entered_cons (t : ReuseTables) (a : RecordAttempt) (history : List RecordAttempt) :
    t.entered (a :: history) =
      if a.TakesEffect ∧ t.chunks.Holds a.event.sourceChunkId then a.event :: t.entered history
      else t.entered history := by
  rw [entered, List.filter_cons]
  by_cases heffect : a.TakesEffect ∧ t.chunks.Holds a.event.sourceChunkId
  · rw [if_pos (decide_eq_true heffect), if_pos heffect, List.map_cons, entered]
  · rw [if_neg (by simpa using heffect), if_neg heffect, entered]

/-- The ledger of a run is what its events make of the ledger, as a set. -/
theorem ledger_recordAll (t : ReuseTables) (history : List RecordAttempt) :
    (t.recordAll history).ledger =
      IdempotentSteps.run (fun e events => insert e events) (t.entered history) t.ledger := by
  induction history generalizing t with
  | nil => rfl
  | cons a history ih =>
    -- a call does not change which chunks there are
    have hentered : (a.recordChunkReuse t).2.entered history = t.entered history := by
      simp only [entered, RecordAttempt.holds_recordChunkReuse]
    rw [recordAll_cons, ih, hentered, RecordAttempt.ledger_recordChunkReuse, entered_cons]
    by_cases heffect : a.TakesEffect ∧ t.chunks.Holds a.event.sourceChunkId
    · rw [if_pos heffect, if_pos heffect, IdempotentSteps.run_cons]
    · rw [if_neg heffect, if_neg heffect]

theorem mem_entered {history : List RecordAttempt} {e : ChunkReuseEvent} :
    e ∈ t.entered history ↔
      t.chunks.Holds e.sourceChunkId ∧ ∃ a ∈ history, a.TakesEffect ∧ a.event = e := by
  simp only [entered, List.mem_map, List.mem_filter, decide_eq_true_eq]
  constructor
  · rintro ⟨a, ⟨ha, heffect, hchunk⟩, rfl⟩
    exact ⟨hchunk, a, ha, heffect, rfl⟩
  · rintro ⟨hchunk, a, ha, heffect, rfl⟩
    exact ⟨a, ⟨ha, heffect, hchunk⟩, rfl⟩

/-- An event is in the ledger if it was, or if a call on a chunk that there is has entered it. -/
theorem mem_ledger_recordAll {history : List RecordAttempt} {e : ChunkReuseEvent} :
    e ∈ (t.recordAll history).ledger ↔ e ∈ t.ledger ∨
      t.chunks.Holds e.sourceChunkId ∧ ∃ a ∈ history, a.TakesEffect ∧ a.event = e := by
  rw [ledger_recordAll, run_insert, Finset.mem_union, List.mem_toFinset, mem_entered]

theorem entered_subset {h h' : List RecordAttempt} (hsub : h ⊆ h') :
    t.entered h ⊆ t.entered h' := by
  intro e he
  obtain ⟨hchunk, a, ha, heffect, hevent⟩ := mem_entered.mp he
  exact mem_entered.mpr ⟨hchunk, a, hsub ha, heffect, hevent⟩

/-- The ledger does not depend on the order of the calls, nor on how often they are made. -/
theorem ledger_recordAll_congr {h h' : List RecordAttempt} (hsub : h ⊆ h') (hsub' : h' ⊆ h) :
    (t.recordAll h).ledger = (t.recordAll h').ledger := by
  rw [ledger_recordAll, ledger_recordAll]
  exact IdempotentSteps.run_eq_of_subset steps_insert (entered_subset hsub) (entered_subset hsub') _

/-- The count of a chunk, if there is the chunk. -/
def reuseCount (t : ReuseTables) (id : Nat) : Option Nat :=
  (t.chunks.find? id).map CountedChunk.reuseCount

/-- In counted tables the count of a chunk is read off the ledger. -/
theorem Counted.reuseCount_eq (ht : t.Counted) (id : Nat) :
    t.reuseCount id = if t.chunks.Holds id then some (reusesOf t.ledger id).card else none := by
  by_cases hchunk : t.chunks.Holds id
  · obtain ⟨c, hrow⟩ := UniqueTable.exists_find? hchunk
    obtain ⟨hmem, hid⟩ := UniqueTable.find?_eq_some.mp hrow
    rw [reuseCount, hrow, Option.map_some, if_pos hchunk, ht c hmem, hid]
  · rw [reuseCount, UniqueTable.find?_eq_none.mpr hchunk, if_neg hchunk, Option.map_none]

end ReuseTables

/-- The reuses of a chunk that the calls record. -/
def reusesIn (history : List RecordAttempt) (id : Nat) : Finset (String × Sha256) :=
  ((history.filter fun a => a.TakesEffect ∧ a.event.sourceChunkId = id).map fun a =>
    (a.event.reusingDocumentId, a.event.reusingChunkContentHash)).toFinset

theorem mem_reusesIn {history : List RecordAttempt} {id : Nat} {r : String × Sha256} :
    r ∈ reusesIn history id ↔ ∃ a ∈ history, a.TakesEffect ∧ a.event = ⟨id, r.1, r.2⟩ := by
  simp only [reusesIn, List.mem_toFinset, List.mem_map, List.mem_filter, decide_eq_true_eq]
  constructor
  · rintro ⟨a, ⟨ha, heffect, rfl⟩, rfl⟩
    exact ⟨a, ha, heffect, rfl⟩
  · rintro ⟨a, ha, heffect, hevent⟩
    exact ⟨a, ⟨ha, heffect, by rw [hevent]⟩, by rw [hevent]⟩

/-- The reuses of a chunk after a run. -/
theorem reusesOf_recordAll {t : ReuseTables} {id : Nat} (hchunk : t.chunks.Holds id)
    (history : List RecordAttempt) :
    reusesOf (t.recordAll history).ledger id = reusesOf t.ledger id ∪ reusesIn history id := by
  ext r
  rw [mem_reusesOf, mem_ledger_recordAll, Finset.mem_union, mem_reusesOf, mem_reusesIn]
  simp only [hchunk, true_and]

/-- The counts after the calls are those of distinct events. -/
structure CountsDistinct (t : ReuseTables) (history : List RecordAttempt) : Prop where
  /-- A chunk counts its distinct reuses, by document and content. -/
  count : ∀ c ∈ (t.recordAll history).chunks.rows,
    c.reuseCount = (reusesOf t.ledger c.id ∪ reusesIn history c.id).card
  /-- A call that returns reports whether its event was new, and the count with it. -/
  report : ∀ before a after, history = before ++ a :: after →
    ∀ r, (a.recordChunkReuse (t.recordAll before)).1 = .ok r →
      (r = none ↔ a.event ∈ t.ledger ∨ ∃ b ∈ before, b.TakesEffect ∧ b.event = a.event) ∧
        ∀ n, r = some n →
          (t.recordAll (before ++ [a])).reuseCount a.event.sourceChunkId = some n
  /-- A call that has returned, or taken effect, changes nothing when it is made again. -/
  replay : ∀ before a after, history = before ++ a :: after →
    (a.TakesEffect ∨ ∃ r, (a.recordChunkReuse (t.recordAll before)).1 = .ok r) →
      ∀ b : RecordAttempt, b.event = a.event →
        (b.recordChunkReuse (t.recordAll history)).2 = t.recordAll history
  /-- The order of the calls, and how often they are made, does not matter for the counts. -/
  order : ∀ history', history ⊆ history' → history' ⊆ history →
    ∀ id, (t.recordAll history').reuseCount id = (t.recordAll history).reuseCount id

/-- From tables whose counts are numbers of events, for every sequence of calls, whichever of them
    fail: the counts are those of distinct events, every call that returns reports whether it was
    new, and replaying calls changes nothing. -/
theorem recordAll_countsDistinct {t : ReuseTables} (ht : t.Counted) (history : List RecordAttempt) :
    CountsDistinct t history where
  count c hc := by
    have hchunk : t.chunks.Holds c.id :=
      (holds_recordAll t history c.id).mp (UniqueTable.holds_iff.mpr ⟨c, hc, rfl⟩)
    rw [counted_recordAll ht history c hc, reusesOf_recordAll hchunk]
  report before a after _ r hr := by
    have hbefore := counted_recordAll ht before
    have hheld := RecordAttempt.recordChunkReuse_eq_none_iff hbefore hr
    constructor
    · rw [hheld, mem_ledger_recordAll]
      constructor
      · rintro (hmem | ⟨-, hcall⟩)
        · exact .inl hmem
        · exact .inr hcall
      · rintro (hmem | ⟨b, hb, heffect, hevent⟩)
        · exact .inl hmem
        · -- a call that returns is on a chunk that there is
          by_contra hnew
          have hnew' : a.event ∉ (t.recordAll before).ledger := fun h =>
            hnew (mem_ledger_recordAll.mp h)
          have hchunk := (RecordAttempt.recordChunkReuse_of_notMem hbefore hnew' hr).2.1
          rw [holds_recordAll] at hchunk
          exact hnew (.inr ⟨hchunk, b, hb, heffect, hevent⟩)
    · rintro n rfl
      have hnew : a.event ∉ (t.recordAll before).ledger := fun hmem => by cases hheld.mpr hmem
      obtain ⟨-, hchunk, hn⟩ := RecordAttempt.recordChunkReuse_of_notMem hbefore hnew hr
      rw [recordAll_append, recordAll_cons, recordAll_nil,
        (a.counted_recordChunkReuse hbefore).reuseCount_eq,
        if_pos ((a.holds_recordChunkReuse _ _).mpr hchunk), hn]
  replay before a after hhistory hended b hevent := by
    have hsettled : a.event ∈ (t.recordAll history).ledger ∨
        ¬ (t.recordAll history).chunks.Holds a.event.sourceChunkId := by
      rcases hended with heffect | ⟨r, hr⟩
      · by_cases hchunk : t.chunks.Holds a.event.sourceChunkId
        · have ha : a ∈ history := by simp [hhistory]
          exact .inl (mem_ledger_recordAll.mpr (.inr ⟨hchunk, a, ha, heffect, rfl⟩))
        · exact .inr fun h => hchunk ((holds_recordAll t history _).mp h)
      · -- no later call takes the event away
        rw [hhistory, recordAll_append, recordAll_cons]
        exact .inl (mem_ledger_recordAll.mpr (.inl (RecordAttempt.mem_ledger_of_returned hr)))
    rw [← hevent] at hsettled
    exact b.recordChunkReuse_of_settled hsettled
  order history' hsub hsub' id := by
    rw [(counted_recordAll ht history').reuseCount_eq, (counted_recordAll ht history).reuseCount_eq,
      ledger_recordAll_congr hsub' hsub]
    simp only [holds_recordAll]

/-- One chunk that nothing has reused. -/
def oneChunk : ReuseTables where
  chunks := ⟨[{ id := 7 }], by decide⟩
  events := .empty
  referenced := by decide

/-- The reuse of that chunk by a document. -/
def reuseBy (documentId : String) : RecordAttempt :=
  { event := ⟨7, documentId, ⟨"text"⟩⟩, workspaceId := "workspace", similarity := 1 }

/-- A second document, whose calls fail before the one that is not acknowledged, and the first
    document twice. -/
theorem recordAll_countsDistinct_replayed :
    oneChunk.Counted ∧ CountsDistinct oneChunk
      [reuseBy "first", { reuseBy "second" with updateFails := true },
        { reuseBy "second" with commit := .failed },
        { reuseBy "second" with commit := .unacknowledged }, reuseBy "first"] :=
  ⟨counted_of_fresh (by decide) rfl, recordAll_countsDistinct (counted_of_fresh (by decide) rfl) _⟩

/-! ## The recording of the detection -/

/-- Nothing fails of the call, and its commit is acknowledged. -/
def RecordAttempt.Quiet (a : RecordAttempt) : Prop :=
  a.connected = true ∧ a.insertFails = false ∧ a.updateFails = false ∧ a.commit = .acknowledged

/-- The tables have the chunks, the counts and the events of the stores. -/
structure Mirrors (s : ReuseStores) (t : ReuseTables) : Prop where
  counts : t.chunks.rows.map (fun c => (c.id, c.reuseCount)) =
    s.chunks.rows.map fun c => (c.id, c.reuseCount)
  events : t.events.rows.map ReuseEventRow.event = s.events.rows

namespace RecordAttempt

variable {a : RecordAttempt} {t t' : ReuseTables}

/-- A quiet call whose body returns leaves what the body leaves. -/
theorem Quiet.recordChunkReuse_of_ok (ha : a.Quiet) {r : Option Nat}
    (hbody : exec a.body t = (.ok r, t')) : a.recordChunkReuse t = (.ok r, t') := by
  rw [RecordAttempt.recordChunkReuse, if_pos ha.1, getSession, hbody]
  dsimp only
  rw [ha.2.2.2]

/-- A quiet call whose body raises is rolled back. -/
theorem Quiet.recordChunkReuse_of_error (ha : a.Quiet) {e : RecordError}
    (hbody : exec a.body t = (.error e, t')) : a.recordChunkReuse t = (.error e, t) := by
  rw [RecordAttempt.recordChunkReuse, if_pos ha.1, getSession_of_error hbody]

end RecordAttempt

/-- An id with its count, counted up when it is the id of the chunk. -/
def countUp (sourceChunkId : Nat) (p : Nat × Nat) : Nat × Nat :=
  if p.1 = sourceChunkId then (p.1, p.2 + 1) else p

theorem countUp_of_incrementRow (sourceChunkId : Nat) (now : Timestamp) (c : CountedChunk) :
    ((incrementRow sourceChunkId now c).id, (incrementRow sourceChunkId now c).reuseCount) =
      countUp sourceChunkId (c.id, c.reuseCount) := by
  by_cases hid : c.id = sourceChunkId
  · simp [incrementRow, countUp, hid]
  · simp [incrementRow, countUp, hid]

theorem countUp_of_bump (sourceChunkId : Nat) (c : ReuseRow) :
    ((ReuseStores.bump sourceChunkId c).id, (ReuseStores.bump sourceChunkId c).reuseCount) =
      countUp sourceChunkId (c.id, c.reuseCount) := by
  by_cases hid : c.id = sourceChunkId
  · simp [ReuseStores.bump, countUp, hid]
  · simp [ReuseStores.bump, countUp, hid]

namespace Mirrors

variable {s : ReuseStores} {t : ReuseTables}

theorem holds_iff (h : Mirrors s t) (e : ChunkReuseEvent) :
    t.events.Holds e ↔ s.events.Holds e := by
  rw [UniqueTable.Holds, UniqueTable.Holds, h.events, List.map_id]

/-- The two have a row for the same ids, with the same count. -/
theorem rowWithId_of_find? (h : Mirrors s t) {id : Nat} {c : CountedChunk}
    (hrow : t.chunks.find? id = some c) :
    ∃ c', s.rowWithId id = some c' ∧ c'.reuseCount = c.reuseCount := by
  obtain ⟨hmem, rfl⟩ := UniqueTable.find?_eq_some.mp hrow
  have hpair : (c.id, c.reuseCount) ∈ s.chunks.rows.map fun c => (c.id, c.reuseCount) := by
    rw [← h.counts]
    exact List.mem_map_of_mem hmem
  obtain ⟨c', hmem', heq⟩ := List.mem_map.mp hpair
  obtain ⟨hid, hcount⟩ := Prod.mk.inj heq
  exact ⟨c', ReuseStores.rowWithId_eq_some.mpr ⟨hmem', hid⟩, hcount⟩

/-- An event that is entered in both is counted in both. -/
theorem addEvent (h : Mirrors s t) {a : RecordAttempt} (hnew : ¬ s.events.Holds a.event)
    (hrow : ∃ c ∈ s.chunks.rows, c.id = a.event.sourceChunkId)
    (hchunk : t.chunks.Holds a.event.sourceChunkId) :
    Mirrors (s.addEvent a.event hrow) (t.counted a hchunk) where
  counts := by
    have hleft : (t.counted a hchunk).chunks.rows.map (fun c => (c.id, c.reuseCount)) =
        (t.chunks.rows.map fun c => (c.id, c.reuseCount)).map (countUp a.event.sourceChunkId) := by
      show (t.chunks.rows.map _).map _ = _
      rw [List.map_map, List.map_map]
      exact List.map_congr_left fun c _ => countUp_of_incrementRow _ _ c
    have hright : (s.addEvent a.event hrow).chunks.rows.map (fun c => (c.id, c.reuseCount)) =
        (s.chunks.rows.map fun c => (c.id, c.reuseCount)).map (countUp a.event.sourceChunkId) := by
      show (s.chunks.rows.map _).map _ = _
      rw [List.map_map, List.map_map]
      exact List.map_congr_left fun c _ => countUp_of_bump _ c
    rw [hleft, hright, h.counts]
  events := by
    have hnew' : ¬ t.events.Holds a.row.event := fun hheld => hnew ((h.holds_iff _).mp hheld)
    show (t.events.insertNew a.row).rows.map _ = (s.events.insertNew a.event).rows
    rw [UniqueTable.rows_insertNew_of_not_holds hnew', UniqueTable.rows_insertNew_of_not_holds hnew,
      List.map_append, h.events, List.map_singleton]
    rfl

/-- The tables have the rows that the stores have. -/
theorem holds_chunk_iff (h : Mirrors s t) (id : Nat) :
    t.chunks.Holds id ↔ ∃ c ∈ s.chunks.rows, c.id = id := by
  have hids : t.chunks.rows.map CountedChunk.id = s.chunks.rows.map ReuseRow.id := by
    have hfirst := congrArg (List.map Prod.fst) h.counts
    rwa [List.map_map, List.map_map] at hfirst
  rw [UniqueTable.Holds, hids, List.mem_map]

/-- A call of which nothing fails does what the detection's recording does. -/
theorem recordChunkReuse (h : Mirrors s t) {a : RecordAttempt} (ha : a.Quiet) :
    match s.recordChunkReuse a.event with
    | none => a.recordChunkReuse t = (.error .foreignKey, t)
    | some (s', r) => (a.recordChunkReuse t).1 = .ok r ∧ Mirrors s' (a.recordChunkReuse t).2 := by
  have hbody := exec_body ha.2.1 t
  rw [exec_insertReuseEvent] at hbody
  rcases s.recordChunkReuse_cases a.event with ⟨hheld, hstep⟩ | ⟨hnone, hstep⟩ |
    ⟨c, hexists, hrow, hnew, hstep⟩
  · rw [if_pos ((h.holds_iff a.row.event).mpr hheld)] at hbody
    rw [hstep, ha.recordChunkReuse_of_ok hbody]
    exact ⟨rfl, h⟩
  · have hchunk : ¬ t.chunks.Holds a.row.event.sourceChunkId := by
      intro hchunk
      obtain ⟨c, hc, hid⟩ := (h.holds_chunk_iff _).mp hchunk
      have hfound : s.rowWithId a.event.sourceChunkId = some c :=
        ReuseStores.rowWithId_eq_some.mpr ⟨hc, hid⟩
      rw [hnone] at hfound
      cases hfound
    -- an event references its chunk
    have hnew : ¬ t.events.Holds a.row.event := by
      intro hheld
      obtain ⟨e, he, hevent⟩ := UniqueTable.holds_iff.mp hheld
      rw [← hevent] at hchunk
      exact hchunk (t.referenced e he)
    rw [if_neg hnew, dif_neg hchunk] at hbody
    rw [hstep]
    exact ha.recordChunkReuse_of_error hbody
  · have hnew' : ¬ t.events.Holds a.row.event := fun hheld => hnew ((h.holds_iff _).mp hheld)
    have hchunk : t.chunks.Holds a.row.event.sourceChunkId := (h.holds_chunk_iff _).mpr hexists
    obtain ⟨d, hfound⟩ := UniqueTable.exists_find? hchunk
    have hcount : c.reuseCount = d.reuseCount := by
      obtain ⟨c', hrow', heq⟩ := h.rowWithId_of_find? hfound
      rw [← heq, Option.some.inj (hrow.symm.trans hrow')]
    have hfound' : (t.insertEvent a.row hchunk).chunks.find? a.event.sourceChunkId = some d :=
      hfound
    rw [if_neg hnew', dif_pos hchunk] at hbody
    dsimp only at hbody
    rw [if_neg Nat.one_ne_zero, if_neg (by simp [ha.2.2.1]),
      exec_incrementReuseCount hfound'] at hbody
    rw [hstep, ha.recordChunkReuse_of_ok hbody, hcount]
    exact ⟨rfl, h.addEvent hnew hexists hchunk⟩

end Mirrors

end Inherent
