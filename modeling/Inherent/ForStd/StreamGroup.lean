import Inherent.ForStd.UniqueTable
import Mathlib

/-!
# A stream with one consumer group

An append-only stream, the entries of which are numbered in order, and the state of one
consumer group on it: how many entries have been delivered, and the entries that are
delivered and not acknowledged, in the order of their numbers.  Every delivery of a pending
entry counts.  `Counts` is the rule for a consumer that keeps a ledger with one item for each
delivery: an entry is in the ledger as often as its counter says.
-/

/-- An entry that was delivered and not acknowledged. -/
structure PendingEntry where
  entryId : Nat
  consumer : String
  deliveryTime : Nat
  timesDelivered : Nat
  deriving DecidableEq, Repr

namespace PendingEntry

/-- The first delivery of an entry. -/
def first (consumer : String) (now id : Nat) : PendingEntry where
  entryId := id
  consumer := consumer
  deliveryTime := now
  timesDelivered := 1

/-- One more delivery, if the entry is one of `ids`. -/
def redeliver (ids : List Nat) (consumer : String) (now : Nat) (p : PendingEntry) : PendingEntry :=
  if p.entryId ∈ ids then
    { p with
      consumer := consumer
      deliveryTime := now
      timesDelivered := p.timesDelivered + 1 }
  else p

@[simp] theorem entryId_redeliver (ids : List Nat) (consumer : String) (now : Nat)
    (p : PendingEntry) : (p.redeliver ids consumer now).entryId = p.entryId := by
  unfold redeliver
  split <;> rfl

end PendingEntry

/-- The entries and the group. -/
structure StreamGroup (α : Type*) where
  entries : List α
  lastDelivered : Nat
  pending : UniqueTable PendingEntry.entryId
  delivered : ∀ p ∈ pending.rows, p.entryId < lastDelivered

namespace StreamGroup

variable {α : Type*}

/-- A stream without entries. -/
def empty : StreamGroup α where
  entries := []
  lastDelivered := 0
  pending := .empty
  delivered := nofun

/-- `XADD`. -/
def add (g : StreamGroup α) (x : α) : StreamGroup α := { g with entries := g.entries ++ [x] }

/-- The next entries, at most `count`, that were never delivered. -/
def undelivered (g : StreamGroup α) (count : Nat) : List Nat :=
  List.range' g.lastDelivered (min count (g.entries.length - g.lastDelivered))

/-- `XREADGROUP ... >`: the entries of `undelivered` become pending. -/
def readNew (g : StreamGroup α) (consumer : String) (now count : Nat) : StreamGroup α where
  entries := g.entries
  lastDelivered := g.lastDelivered + (g.undelivered count).length
  pending := g.pending.insertAll ((g.undelivered count).map (PendingEntry.first consumer now))
  delivered := by
    intro p hp
    rcases UniqueTable.mem_of_mem_insertAll hp with hp | hp
    · exact Nat.lt_add_right _ (g.delivered p hp)
    · obtain ⟨id, hid, rfl⟩ := List.mem_map.mp hp
      -- the entries that are read come right after the last delivered one
      show id < _
      unfold undelivered at hid ⊢
      rw [List.mem_range'_1] at hid
      rw [List.length_range']
      omega

/-- The pending entries of the consumer, at most `count`. -/
def history (g : StreamGroup α) (consumer : String) (count : Nat) : List Nat :=
  ((g.pending.rows.filter (·.consumer = consumer)).take count).map (·.entryId)

/-- The pending entries that have been idle for `minIdle` at time `now`. -/
def idle (g : StreamGroup α) (now minIdle : Nat) : List Nat :=
  (g.pending.rows.filter fun p => minIdle ≤ now - p.deliveryTime).map (·.entryId)

/-- The entries that `XAUTOCLAIM` with this count returns: it looks at ten times as many
    pending entries and takes those that are idle. -/
def claimable (g : StreamGroup α) (now minIdle count : Nat) : List Nat :=
  (((g.pending.rows.take (10 * count)).filter fun p =>
    minIdle ≤ now - p.deliveryTime).take count).map (·.entryId)

/-- The pending entries `ids` are delivered once more. -/
def redeliver (g : StreamGroup α) (ids : List Nat) (consumer : String) (now : Nat) :
    StreamGroup α :=
  { g with
    pending := g.pending.update (PendingEntry.redeliver ids consumer now)
      (PendingEntry.entryId_redeliver ids consumer now)
    delivered := by
      intro p hp
      obtain ⟨p', hp', rfl⟩ := List.mem_map.mp hp
      rw [PendingEntry.entryId_redeliver]
      exact g.delivered p' hp' }

/-- `XACK`. -/
def ack (g : StreamGroup α) (id : Nat) : StreamGroup α :=
  { g with
    pending := g.pending.erase id
    delivered := fun p hp => g.delivered p (UniqueTable.mem_erase.mp hp).1 }

/-- How often the entry was delivered, if it is pending: `XPENDING`. -/
def deliveries (g : StreamGroup α) (id : Nat) : Option Nat :=
  (g.pending.find? id).map (·.timesDelivered)

/-! ## What the operations return -/

theorem nodup_undelivered (g : StreamGroup α) (count : Nat) : (g.undelivered count).Nodup :=
  List.nodup_range'

theorem le_of_mem_undelivered {g : StreamGroup α} {count id : Nat}
    (h : id ∈ g.undelivered count) : g.lastDelivered ≤ id :=
  (List.mem_range'_1.mp h).1

theorem lt_of_mem_undelivered {g : StreamGroup α} {count id : Nat}
    (h : id ∈ g.undelivered count) : id < g.lastDelivered + (g.undelivered count).length := by
  unfold undelivered at h ⊢
  rw [List.length_range']
  exact (List.mem_range'_1.mp h).2

/-- Entries picked from the pending ones are pending and distinct. -/
private theorem nodup_of_sublist {g : StreamGroup α} {rows : List PendingEntry}
    (h : rows.Sublist g.pending.rows) : (rows.map (·.entryId)).Nodup :=
  g.pending.unique.sublist (h.map _)

private theorem lt_of_sublist {g : StreamGroup α} {rows : List PendingEntry}
    (h : rows.Sublist g.pending.rows) : ∀ id ∈ rows.map (·.entryId), id < g.lastDelivered := by
  intro id hid
  obtain ⟨p, hp, rfl⟩ := List.mem_map.mp hid
  exact g.delivered p (h.subset hp)

private theorem history_sublist (g : StreamGroup α) (consumer : String) (count : Nat) :
    ((g.pending.rows.filter (·.consumer = consumer)).take count).Sublist g.pending.rows :=
  (List.take_sublist _ _).trans List.filter_sublist

private theorem claimable_sublist (g : StreamGroup α) (now minIdle count : Nat) :
    (((g.pending.rows.take (10 * count)).filter fun p =>
      minIdle ≤ now - p.deliveryTime).take count).Sublist g.pending.rows :=
  ((List.take_sublist _ _).trans List.filter_sublist).trans (List.take_sublist _ _)

theorem nodup_history (g : StreamGroup α) (consumer : String) (count : Nat) :
    (g.history consumer count).Nodup :=
  nodup_of_sublist (history_sublist g consumer count)

theorem lt_of_mem_history (g : StreamGroup α) (consumer : String) (count : Nat) :
    ∀ id ∈ g.history consumer count, id < g.lastDelivered :=
  lt_of_sublist (history_sublist g consumer count)

theorem nodup_claimable (g : StreamGroup α) (now minIdle count : Nat) :
    (g.claimable now minIdle count).Nodup :=
  nodup_of_sublist (claimable_sublist g now minIdle count)

theorem lt_of_mem_claimable (g : StreamGroup α) (now minIdle count : Nat) :
    ∀ id ∈ g.claimable now minIdle count, id < g.lastDelivered :=
  lt_of_sublist (claimable_sublist g now minIdle count)

/-! ## The delivery counters -/

/-- An entry that is delivered for the first time counts one delivery. -/
theorem deliveries_readNew_of_mem {g : StreamGroup α} {consumer : String} {now count id : Nat}
    (h : id ∈ g.undelivered count) : (g.readNew consumer now count).deliveries id = some 1 := by
  have hnew : ∀ p ∈ (g.undelivered count).map (PendingEntry.first consumer now),
      ¬ g.pending.Holds p.entryId := by
    intro p hp hholds
    obtain ⟨id, hid, rfl⟩ := List.mem_map.mp hp
    obtain ⟨p', hp', heq⟩ := UniqueTable.holds_iff.mp hholds
    -- a pending entry was delivered before, a new one comes after all that were
    have hlt := g.delivered p' hp'
    have hle := le_of_mem_undelivered hid
    rw [heq] at hlt
    exact Nat.lt_irrefl _ (Nat.lt_of_lt_of_le hlt hle)
  have hkeys : (((g.undelivered count).map (PendingEntry.first consumer now)).map
      PendingEntry.entryId).Nodup := by
    have hself : PendingEntry.entryId ∘ PendingEntry.first consumer now = fun k => k := rfl
    rw [List.map_map, hself, List.map_id']
    exact g.nodup_undelivered count
  have hfind : (g.readNew consumer now count).pending.find? id =
      some (PendingEntry.first consumer now id) := by
    rw [UniqueTable.find?_eq_some]
    refine ⟨?_, rfl⟩
    show _ ∈ (g.pending.insertAll _).rows
    rw [UniqueTable.rows_insertAll_of_free hkeys hnew]
    exact List.mem_append_right _ (List.mem_map_of_mem h)
  rw [deliveries, hfind]
  rfl

/-- The others keep their counter. -/
theorem deliveries_readNew_of_not_mem {g : StreamGroup α} {consumer : String}
    {now count id : Nat} (h : id ∉ g.undelivered count) :
    (g.readNew consumer now count).deliveries id = g.deliveries id := by
  unfold deliveries
  congr 1
  apply UniqueTable.find?_congr
  intro p hp
  constructor
  · intro hmem
    rcases UniqueTable.mem_of_mem_insertAll hmem with hmem | hmem
    · exact hmem
    · obtain ⟨id', hid', rfl⟩ := List.mem_map.mp hmem
      exact absurd (hp ▸ hid') h
  · exact UniqueTable.mem_insertAll_of_mem _

/-- One more delivery adds one. -/
theorem deliveries_redeliver (g : StreamGroup α) (ids : List Nat) (consumer : String)
    (now id : Nat) : (g.redeliver ids consumer now).deliveries id =
      if id ∈ ids then (g.deliveries id).map (· + 1) else g.deliveries id := by
  unfold deliveries redeliver
  rw [UniqueTable.find?_update, Option.map_map]
  cases h : g.pending.find? id with
  | none => simp
  | some p =>
    obtain ⟨-, rfl⟩ := UniqueTable.find?_eq_some.mp h
    simp only [Option.map_some, Function.comp_apply, PendingEntry.redeliver]
    split <;> rfl

theorem deliveries_ack (g : StreamGroup α) (id id' : Nat) :
    (g.ack id).deliveries id' = if id' = id then none else g.deliveries id' := by
  unfold deliveries ack
  by_cases h : id' = id
  · subst h
    rw [if_pos rfl, Option.map_eq_none_iff, UniqueTable.find?_eq_none,
      UniqueTable.not_holds_iff]
    exact fun p hp => (UniqueTable.mem_erase.mp hp).2
  · rw [if_neg h]
    congr 1
    apply UniqueTable.find?_congr
    intro p hp
    rw [UniqueTable.mem_erase]
    exact and_iff_left (hp ▸ h)

/-! ## Ledgers -/

/-- The ledger names each pending entry as often as it was delivered, and no entry that was
    not delivered. -/
structure Counts (g : StreamGroup α) (ledger : List Nat) : Prop where
  delivered : ∀ id ∈ ledger, id < g.lastDelivered
  count : ∀ id d, g.deliveries id = some d → ledger.count id = d

namespace Counts

variable {g : StreamGroup α} {ledger ledger' : List Nat}

protected theorem empty : Counts (empty : StreamGroup α) [] where
  delivered := nofun
  count := nofun

/-- The order of the ledger does not matter. -/
theorem perm (h : Counts g ledger) (hp : ledger'.Perm ledger) : Counts g ledger' where
  delivered := fun id hid => h.delivered id (hp.mem_iff.mp hid)
  count := fun id d hd => (hp.count_eq id).trans (h.count id d hd)

protected theorem add (h : Counts g ledger) (x : α) : Counts (g.add x) ledger where
  delivered := h.delivered
  count := h.count

protected theorem ack (h : Counts g ledger) (id : Nat) : Counts (g.ack id) ledger where
  delivered := h.delivered
  count := by
    intro id' d hd
    rw [deliveries_ack] at hd
    split at hd
    · exact nomatch hd
    · exact h.count id' d hd

/-- A first delivery. -/
protected theorem readNew (h : Counts g ledger) (consumer : String) (now count : Nat) :
    Counts (g.readNew consumer now count) (ledger ++ g.undelivered count) where
  delivered := by
    intro id hid
    rcases List.mem_append.mp hid with hid | hid
    · exact Nat.lt_add_right _ (h.delivered id hid)
    · exact lt_of_mem_undelivered hid
  count := by
    intro id d hd
    rw [List.count_append]
    by_cases hid : id ∈ g.undelivered count
    · rw [deliveries_readNew_of_mem hid, Option.some.injEq] at hd
      have hle := le_of_mem_undelivered hid
      have hnot : id ∉ ledger := fun hmem => absurd (h.delivered id hmem) (by omega)
      rw [List.count_eq_zero_of_not_mem hnot,
        List.count_eq_one_of_mem (g.nodup_undelivered count) hid]
      omega
    · rw [deliveries_readNew_of_not_mem hid] at hd
      rw [List.count_eq_zero_of_not_mem hid, Nat.add_zero]
      exact h.count id d hd

/-- One more delivery of distinct entries. -/
protected theorem redeliver (h : Counts g ledger) {ids : List Nat} (hnd : ids.Nodup)
    (hlt : ∀ id ∈ ids, id < g.lastDelivered) (consumer : String) (now : Nat) :
    Counts (g.redeliver ids consumer now) (ledger ++ ids) where
  delivered := by
    intro id hid
    rcases List.mem_append.mp hid with hid | hid
    · exact h.delivered id hid
    · exact hlt id hid
  count := by
    intro id d hd
    rw [deliveries_redeliver] at hd
    rw [List.count_append]
    split at hd
    · rename_i hid
      obtain ⟨d', hd', rfl⟩ := Option.map_eq_some_iff.mp hd
      rw [h.count id d' hd', List.count_eq_one_of_mem hnd hid]
    · rename_i hid
      rw [List.count_eq_zero_of_not_mem hid, Nat.add_zero]
      exact h.count id d hd

end Counts

end StreamGroup
