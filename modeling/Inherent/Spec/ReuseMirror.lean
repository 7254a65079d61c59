import Inherent.Native.ReuseSystem

/-!
# The mirrored reuse counts

`document_chunks.reuse_count` is counted in one transaction and copied to the chunk's object
by another call.  What holds while ingests are under way is that each object has the count of
its row or that some ingest still owes it that count.  Nothing in the code sees to it that a
debt is paid, or paid last; the conditions under which it is are those of `PaysDebts`.
-/

open EventRun

namespace Inherent

open ReuseStores

/-- The ingest has yet to write the count on the object. -/
def ReuseIngest.Owes (i : ReuseIngest) (slot : String × ChunkKey) (count : Nat) : Prop :=
  match i.phase with
  -- its rows and then its objects are to be replaced
  | .claimed => i.append = false ∧ slot.1 = i.userId ∧ slot.2.documentId = i.documentId
  | .stored | .permitted | .deleted =>
    slot.1 = i.userId ∧ slot.2.documentId = i.documentId ∧ slot.2.chunkIndex ∈ i.indices ∧
      count = 0
  | .mirroring newCount _ candidate _ _ => slot = (i.userId, candidate.key) ∧ count = newCount
  | _ => False

instance ReuseIngest.instDecidableOwes (i : ReuseIngest) (slot : String × ChunkKey) (count : Nat) :
    Decidable (i.Owes slot count) := by
  unfold ReuseIngest.Owes
  split <;> infer_instance

/-- Some of the ingests owes the object the count. -/
def Owed (ingests : List ReuseIngest) (slot : String × ChunkKey) (count : Nat) : Prop :=
  ∃ i ∈ ingests, i.Owes slot count

instance (ingests : List ReuseIngest) (slot : String × ChunkKey) (count : Nat) :
    Decidable (Owed ingests slot count) :=
  inferInstanceAs (Decidable (∃ i ∈ ingests, _))

/-- Each object has the count of its chunk's row. -/
def ReuseStores.Agrees (s : ReuseStores) : Prop :=
  ∀ c ∈ s.chunks.rows, ∀ o ∈ s.objects.rows, o.key = c.key → o.reuseCount = c.reuseCount

instance (s : ReuseStores) : Decidable s.Agrees :=
  inferInstanceAs (Decidable (∀ c ∈ s.chunks.rows, ∀ o ∈ s.objects.rows, _ → _))

/-- Each object has the count of its row or is owed it. -/
def Mirrored (ingests : List ReuseIngest) (s : ReuseStores) : Prop :=
  ∀ c ∈ s.chunks.rows, ∀ o ∈ s.objects.rows, o.key = c.key →
    o.reuseCount = c.reuseCount ∨ Owed ingests o.slot c.reuseCount

/-- What the ingest owes is there, or owed by one of the others. -/
def ReuseIngest.Released (i : ReuseIngest) (others : List ReuseIngest) (s : ReuseStores) : Prop :=
  ∀ c ∈ s.chunks.rows, ∀ o ∈ s.objects.rows, o.key = c.key → i.Owes o.slot c.reuseCount →
    o.reuseCount = c.reuseCount ∨ Owed others o.slot c.reuseCount

instance (i : ReuseIngest) (others : List ReuseIngest) (s : ReuseStores) :
    Decidable (i.Released others s) :=
  inferInstanceAs (Decidable (∀ c ∈ s.chunks.rows, ∀ o ∈ s.objects.rows, _ → _ → _))

/-- The conditions on an action, before it is taken. -/
def ReuseIngest.PaysDebts (i : ReuseIngest) (others : List ReuseIngest) (s : ReuseStores) :
    ReuseAction → Prop
  -- the document has no counted object in the tenant of another user
  | .storeRows true =>
    ∀ o ∈ s.objects.rows, o.key.documentId = i.documentId → o.key.chunkIndex ∈ i.indices →
      (i.append = true → ¬ s.chunks.Holds o.key) →
      o.userId = i.userId ∨ o.reuseCount = 0 ∨ Owed others o.slot 0
  -- a superseded or a dead ingest leaves nothing undone
  | .storeRows false | .checkFence false | .stop => i.Released others s
  -- no object is written whose chunk has been reused
  | .writeObjects landed _ =>
    ∀ c ∈ s.chunks.rows, ∀ o ∈ i.landedObjects landed, o.key = c.key →
      c.reuseCount = 0 ∨ Owed others o.slot c.reuseCount
  -- the source chunk has no object in another tenant
  | .record .returned =>
    match i.phase with
    | .recording sourceChunkId .. =>
      ∀ c ∈ s.chunks.rows, c.id = sourceChunkId → ∀ o ∈ s.objects.rows, o.key = c.key →
        o.userId = i.userId
    | _ => True
  -- no later count has been mirrored already
  | .mirror .returned =>
    match i.phase with
    | .mirroring newCount _ candidate _ _ =>
      ∀ c ∈ s.chunks.rows, c.key = candidate.key →
        c.reuseCount = newCount ∨ Owed others (i.userId, candidate.key) c.reuseCount
    | _ => True
  -- a mirror write that fails is not the last one
  | .mirror _ => i.Released others s
  | _ => True

instance (i : ReuseIngest) (others : List ReuseIngest) (s : ReuseStores) (action : ReuseAction) :
    Decidable (i.PaysDebts others s action) := by
  unfold ReuseIngest.PaysDebts
  split
  · infer_instance
  · infer_instance
  · infer_instance
  · infer_instance
  · infer_instance
  · split <;> infer_instance
  · split <;> infer_instance
  · infer_instance
  · infer_instance

/-! ### What an action does -/

section

variable {w : ReuseServices} {i : ReuseIngest} {s s' : ReuseStores} {phase : ReusePhase}

theorem act_checkFence {active : Bool} (h : i.act w s (.checkFence active) = some (s', phase)) :
    i.phase = .stored ∧ s' = s ∧ phase = if active then .permitted else .ended := by
  cases hp : i.phase <;> simp only [ReuseIngest.act, hp, reduceCtorEq] at h
  cases active <;> simp_all

theorem act_deleteObjects {indices : List Nat}
    (h : i.act w s (.deleteObjects indices) = some (s', phase)) :
    i.phase = .permitted ∧ phase = .deleted ∧ s'.chunks = s.chunks ∧ s'.nextId = s.nextId ∧
      ∀ o ∈ s'.objects.rows, o ∈ s.objects.rows := by
  cases hp : i.phase <;> simp only [ReuseIngest.act, hp, reduceCtorEq] at h
  split at h
  · cases h
  · simp only [Option.some.injEq, Prod.mk.injEq] at h
    obtain ⟨rfl, rfl⟩ := h
    exact ⟨rfl, rfl, rfl, rfl, fun o ho => (UniqueTable.mem_filter.mp ho).1⟩

theorem act_writeObjects {landed : List Bool} {error : Bool}
    (h : i.act w s (.writeObjects landed error) = some (s', phase)) :
    (i.phase = .permitted ∨ i.phase = .deleted) ∧ s' = s.storeObjects (i.landedObjects landed) ∧
      (phase = .stored ∨
        phase = .scanning i.chunks ∧ (i.landedObjects landed).length = i.chunks.length) := by
  simp only [ReuseIngest.act, Option.ite_none_right_eq_some, Option.some.injEq,
    Prod.mk.injEq] at h
  obtain ⟨hphase, rfl, hnext⟩ := h
  refine ⟨?_, rfl, ?_⟩
  · split at hphase
    · exact Or.inl hphase
    · exact Or.inr hphase
  · split at hnext
    · next hall => exact Or.inr ⟨hnext.symm, hall.1⟩
    · exact Or.inl hnext.symm

theorem act_search {response : Option (List ReuseCandidate)}
    (h : i.act w s (.search response) = some (s', phase)) :
    s' = s ∧ (∃ rest, i.phase = .scanning rest) ∧
      (phase = .ended ∨ (∃ rest, phase = .scanning rest) ∨
        ∃ chunk candidates rest, phase = .confirming chunk candidates rest) := by
  cases hp : i.phase <;> simp only [ReuseIngest.act, hp, reduceCtorEq] at h
  rename_i rest
  refine ⟨?_, ⟨rest, rfl⟩, ?_⟩
  · cases rest <;> grind
  · cases rest <;> grind

theorem act_confirm {outcome : ReuseOutcome}
    (h : i.act w s (.confirm outcome) = some (s', phase)) :
    s' = s ∧ (∃ chunk candidates rest, i.phase = .confirming chunk candidates rest) ∧
      ((∃ rest, phase = .scanning rest) ∨
        (∃ chunk candidates rest, phase = .confirming chunk candidates rest) ∨
        ∃ chunk candidate candidates rest source,
          s.getChunkForReuse candidate.key = some source ∧
            phase = .recording source.id chunk candidate candidates rest) := by
  cases hp : i.phase <;> simp only [ReuseIngest.act, hp, reduceCtorEq] at h
  rename_i chunk candidates rest
  cases candidates with
  | nil => grind
  | cons candidate candidates =>
    refine ⟨?_, ⟨chunk, candidate :: candidates, rest, rfl⟩, ?_⟩
    · grind
    · grind

theorem act_record {outcome : ReuseOutcome} (h : i.act w s (.record outcome) = some (s', phase)) :
    ∃ sourceChunkId chunk candidate candidates rest,
      i.phase = .recording sourceChunkId chunk candidate candidates rest ∧
        ((s' = s ∧ phase = .confirming chunk candidates rest) ∨
          outcome = .returned ∧ ∃ e c hrow, e.sourceChunkId = sourceChunkId ∧
            c ∈ s.chunks.rows ∧ c.id = sourceChunkId ∧ s' = s.addEvent e hrow ∧
            phase = .mirroring (c.reuseCount + 1) chunk candidate candidates rest) := by
  cases hp : i.phase <;> simp only [ReuseIngest.act, hp, reduceCtorEq] at h
  rename_i sourceChunkId chunk candidate candidates rest
  refine ⟨sourceChunkId, chunk, candidate, candidates, rest, rfl, ?_⟩
  split at h
  · next hreturned =>
    rcases s.recordChunkReuse_cases ⟨sourceChunkId, i.documentId, ⟨chunk.content⟩⟩ with
      ⟨-, hrecord⟩ | ⟨-, hrecord⟩ | ⟨c, hrow, hc, -, hrecord⟩
    · simp only [hrecord, Option.some.injEq, Prod.mk.injEq] at h
      exact Or.inl ⟨h.1.symm, h.2.symm⟩
    · simp only [hrecord, Option.some.injEq, Prod.mk.injEq] at h
      exact Or.inl ⟨h.1.symm, h.2.symm⟩
    · simp only [hrecord, Option.some.injEq, Prod.mk.injEq] at h
      obtain ⟨hmem, hid⟩ := rowWithId_eq_some.mp hc
      exact Or.inr ⟨hreturned, _, c, hrow, rfl, hmem, hid, h.1.symm, h.2.symm⟩
  · simp only [Option.some.injEq, Prod.mk.injEq] at h
    exact Or.inl ⟨h.1.symm, h.2.symm⟩

theorem act_mirror {outcome : ReuseOutcome} (h : i.act w s (.mirror outcome) = some (s', phase)) :
    ∃ newCount chunk candidate candidates rest,
      i.phase = .mirroring newCount chunk candidate candidates rest ∧
        phase = .confirming chunk candidates rest ∧
        ((s' = s ∧ (outcome = .returned → ¬ s.objects.Holds (i.userId, candidate.key))) ∨
          outcome = .returned ∧
            s.setChunkReuseCount i.userId candidate.key newCount = some s') := by
  cases hp : i.phase <;> simp only [ReuseIngest.act, hp, reduceCtorEq] at h
  rename_i newCount chunk candidate candidates rest
  refine ⟨newCount, chunk, candidate, candidates, rest, rfl, ?_⟩
  split at h
  · next hreturned =>
    split at h
    · next hnone =>
      simp only [Option.some.injEq, Prod.mk.injEq] at h
      refine ⟨h.2.symm, Or.inl ⟨h.1.symm, fun _ hholds => ?_⟩⟩
      simp only [setChunkReuseCount, if_pos hholds, reduceCtorEq] at hnone
    · next hsome =>
      simp only [Option.some.injEq, Prod.mk.injEq] at h
      exact ⟨h.2.symm, Or.inr ⟨hreturned, h.1 ▸ hsome⟩⟩
  · next hlost =>
    simp only [Option.some.injEq, Prod.mk.injEq] at h
    exact ⟨h.2.symm, Or.inl ⟨h.1.symm, fun hreturned => absurd hreturned hlost⟩⟩

/-! ### Debts -/

variable {others : List ReuseIngest}

theorem owed_cons {slot : String × ChunkKey} {count : Nat} :
    Owed (i :: others) slot count ↔ i.Owes slot count ∨ Owed others slot count := by
  simp only [Owed, List.mem_cons, or_and_right, exists_or, exists_eq_left]

/-- An ingest that goes on to another phase with its debts. -/
theorem Mirrored.of_owes {i' : ReuseIngest} (h : Mirrored (i :: others) s)
    (howes : ∀ slot count, i.Owes slot count → i'.Owes slot count) :
    Mirrored (i' :: others) s := by
  intro c hc o ho hkey
  refine (h c hc o ho hkey).imp_right fun howed => ?_
  exact owed_cons.mpr ((owed_cons.mp howed).imp_left (howes o.slot c.reuseCount))

/-- An ingest that is released of its debts. -/
theorem Mirrored.of_released {i' : ReuseIngest} (h : Mirrored (i :: others) s)
    (hreleased : i.Released others s) : Mirrored (i' :: others) s := by
  intro c hc o ho hkey
  rcases h c hc o ho hkey with hagree | howed
  · exact Or.inl hagree
  · rcases owed_cons.mp howed with howes | howed
    · exact (hreleased c hc o ho hkey howes).imp_right fun h => owed_cons.mpr (Or.inr h)
    · exact Or.inr (owed_cons.mpr (Or.inr howed))

/-- An ingest that owes nothing. -/
theorem Mirrored.of_not_owes {i' : ReuseIngest} (h : Mirrored (i :: others) s)
    (howes : ∀ slot count, ¬ i.Owes slot count) : Mirrored (i' :: others) s :=
  h.of_owes fun slot count hi => absurd hi (howes slot count)

/-- A row after a store was there before, or is a new one of the document. -/
theorem mem_storeRows {documentId : String} {append : Bool} {indices : List Nat} {c : ReuseRow}
    (h : c ∈ (s.storeRows documentId append indices).chunks.rows) :
    (c ∈ s.chunks.rows ∧ (append = false → c.key.documentId ≠ documentId)) ∨
      (c.key.documentId = documentId ∧ c.key.chunkIndex ∈ indices ∧ c.reuseCount = 0 ∧
        (append = true → ¬ s.chunks.Holds c.key) ∧ s.nextId ≤ c.id) := by
  have hnew : ∀ t : ReuseStores, c ∈ (t.insertRows documentId indices).chunks.rows →
      c ∈ t.chunks.rows ∨ ¬ t.chunks.Holds c.key ∧ c ∈ t.newRows documentId indices := by
    intro t hc
    by_cases hholds : t.chunks.Holds c.key
    · -- the row of a key that was taken is still there
      obtain ⟨r, hr, hkey⟩ := UniqueTable.holds_iff.mp hholds
      left
      exact UniqueTable.eq_of_key_eq (UniqueTable.mem_insertAll_of_mem _ hr) hc hkey ▸ hr
    · exact (UniqueTable.mem_of_mem_insertAll hc).imp_right fun h => ⟨hholds, h⟩
  unfold storeRows at h
  cases append with
  | true =>
    rcases hnew s h with hc | ⟨hfree, hc⟩
    · exact Or.inl ⟨hc, nofun⟩
    · obtain ⟨hle, -, hget, hdoc, hzero⟩ := id_of_mem_newRows hc
      exact Or.inr ⟨hdoc, List.mem_of_getElem? hget, hzero, fun _ => hfree, hle⟩
  | false =>
    rcases hnew (s.deleteRows documentId) h with hc | ⟨-, hc⟩
    · obtain ⟨hc, hne⟩ := UniqueTable.mem_filter.mp hc
      exact Or.inl ⟨hc, fun _ => of_decide_eq_true hne⟩
    · obtain ⟨hle, -, hget, hdoc, hzero⟩ := id_of_mem_newRows hc
      exact Or.inr ⟨hdoc, List.mem_of_getElem? hget, hzero, nofun, hle⟩

theorem objects_storeRows {documentId : String} {append : Bool} {indices : List Nat} :
    (s.storeRows documentId append indices).objects = s.objects := by
  cases append <;> rfl

/-- A store of rows: the counts that it resets are owed by the ingest from now on. -/
theorem Mirrored.storeRows (h : Mirrored (i :: others) s) (hphase : i.phase = .claimed)
    (hpays : i.PaysDebts others s (.storeRows true)) :
    Mirrored ({ i with phase := .stored } :: others)
      (s.storeRows i.documentId i.append i.indices) := by
  intro c hc o ho hkey
  rw [objects_storeRows] at ho
  rcases mem_storeRows hc with ⟨hc, hkept⟩ | ⟨hdoc, hindex, hzero, hfree, -⟩
  · refine (h c hc o ho hkey).imp_right fun howed => owed_cons.mpr (Or.inr ?_)
    refine (owed_cons.mp howed).resolve_left fun howes => ?_
    -- the ingest owed nothing on a row that it keeps
    rw [ReuseIngest.Owes, hphase] at howes
    exact hkept howes.1 (hkey ▸ howes.2.2)
  · have hdoc' : o.key.documentId = i.documentId := hkey ▸ hdoc
    have hindex' : o.key.chunkIndex ∈ i.indices := hkey ▸ hindex
    rcases hpays o ho hdoc' hindex' (hkey ▸ hfree) with huser | hagree | howed
    · exact Or.inr (owed_cons.mpr (Or.inl ⟨huser, hdoc', hindex', hzero⟩))
    · exact Or.inl (hagree.trans hzero.symm)
    · exact Or.inr (owed_cons.mpr (Or.inr (hzero ▸ howed)))

/-- A delete of objects leaves fewer of them. -/
theorem Mirrored.of_subset {i' : ReuseIngest} (h : Mirrored (i :: others) s)
    (hchunks : s'.chunks = s.chunks) (hobjects : ∀ o ∈ s'.objects.rows, o ∈ s.objects.rows)
    (howes : ∀ slot count, i.Owes slot count → i'.Owes slot count) :
    Mirrored (i' :: others) s' :=
  fun c hc o ho hkey => h.of_owes howes c (hchunks ▸ hc) o (hobjects o ho) hkey

theorem landedObjects_sublist (landed : List Bool) :
    (i.landedObjects landed).Sublist (newObjects i.userId i.documentId i.chunks) := by
  have hzip : ∀ (objects : List ReuseObject) (landed : List Bool),
      ((objects.zip landed).filterMap fun p => if p.2 then some p.1 else none).Sublist
        objects := by
    intro objects
    induction objects with
    | nil => intro landed; simp
    | cons o objects ih =>
      intro landed
      cases landed with
      | nil => simp
      | cons b landed =>
        rw [List.zip_cons_cons, List.filterMap_cons]
        cases b with
        | true => exact (ih landed).cons_cons o
        | false => exact (ih landed).cons o
  exact hzip _ landed

/-- A batch write: every object that it writes has a count of 0. -/
theorem Mirrored.writeObjects {landed : List Bool} {error : Bool}
    (h : Mirrored (i :: others) s) (hphase : i.phase = .permitted ∨ i.phase = .deleted)
    (hpays : i.PaysDebts others s (.writeObjects landed error))
    (hnext : phase = .stored ∨
      phase = .scanning i.chunks ∧ (i.landedObjects landed).length = i.chunks.length) :
    Mirrored ({ i with phase } :: others) (s.storeObjects (i.landedObjects landed)) := by
  intro c hc o ho hkey
  rcases UniqueTable.mem_of_mem_putAll ho with hwritten | ⟨ho, hslot⟩
  · have hnew := (landedObjects_sublist landed).subset hwritten
    obtain ⟨chunk, -, rfl⟩ := List.mem_map.mp hnew
    rcases hpays c hc _ hwritten hkey with hzero | howed
    · exact Or.inl hzero.symm
    · exact Or.inr (owed_cons.mpr (Or.inr howed))
  · rcases h c hc o ho hkey with hagree | howed
    · exact Or.inl hagree
    · refine Or.inr (owed_cons.mpr ((owed_cons.mp howed).imp_left fun howes => ?_))
      have howes' : o.slot.1 = i.userId ∧ o.slot.2.documentId = i.documentId ∧
          o.slot.2.chunkIndex ∈ i.indices ∧ c.reuseCount = 0 := by
        rcases hphase with hphase | hphase <;> rwa [ReuseIngest.Owes, hphase] at howes
      rcases hnext with rfl | ⟨rfl, hall⟩
      · exact howes'
      · -- the whole batch has landed, and the object with it
        obtain ⟨huser, hdoc, hindex, -⟩ := howes'
        have hbatch := (landedObjects_sublist (i := i) landed).eq_of_length
          (hall.trans (by simp [newObjects]))
        obtain ⟨chunk, hchunk, hchunkIndex⟩ := List.mem_map.mp hindex
        refine absurd (List.mem_map.mpr ⟨⟨i.userId, ⟨i.documentId, chunk.chunkIndex⟩,
          chunk.content, 0⟩, ?_, ?_⟩) hslot
        · rw [hbatch]
          exact List.mem_map_of_mem hchunk
        · exact Prod.ext huser.symm (congrArg₂ ChunkKey.mk hdoc.symm hchunkIndex)

/-- A counted reuse is owed to the object of its source chunk. -/
theorem Mirrored.addEvent {sourceChunkId : Nat} {chunk : ReusingChunk}
    {candidate : ReuseCandidate} {candidates : List ReuseCandidate} {rest : List ReusingChunk}
    {e : ChunkReuseEvent} {source : ReuseRow} (h : Mirrored (i :: others) s)
    (hphase : i.phase = .recording sourceChunkId chunk candidate candidates rest)
    (hpays : i.PaysDebts others s (.record .returned))
    (htied : ∀ c ∈ s.chunks.rows, c.id = sourceChunkId → c.key = candidate.key)
    (he : e.sourceChunkId = sourceChunkId) (hsource : source ∈ s.chunks.rows)
    (hid : source.id = sourceChunkId) (hrow) :
    Mirrored
      ({ i with phase := .mirroring (source.reuseCount + 1) chunk candidate candidates rest } ::
        others) (s.addEvent e hrow) := by
  intro c' hc' o ho hkey
  obtain ⟨c, hc, rfl⟩ := List.mem_map.mp hc'
  rw [(key_bump _ c).1] at hkey
  rw [he]
  by_cases hcid : c.id = sourceChunkId
  · -- this is the row that is counted
    obtain rfl : c = source := s.ids c hc source hsource (hcid.trans hid.symm)
    simp only [ReuseIngest.PaysDebts, hphase] at hpays
    have huser := hpays c hc hcid o ho hkey
    have hslot : o.slot = (i.userId, candidate.key) :=
      Prod.ext huser (hkey.trans (htied c hc hcid))
    refine Or.inr (owed_cons.mpr (Or.inl ⟨hslot, ?_⟩))
    rw [bump, if_pos hcid]
  · rw [bump, if_neg hcid]
    refine h.of_not_owes (fun slot count => ?_) c hc o ho hkey
    rw [ReuseIngest.Owes, hphase]
    exact not_false

/-- A mirror write that comes in its turn. -/
theorem Mirrored.setChunkReuseCount {newCount : Nat} {chunk : ReusingChunk}
    {candidate : ReuseCandidate} {candidates : List ReuseCandidate} {rest : List ReusingChunk}
    {i' : ReuseIngest} (h : Mirrored (i :: others) s)
    (hphase : i.phase = .mirroring newCount chunk candidate candidates rest)
    (hpays : i.PaysDebts others s (.mirror .returned))
    (hset : s.setChunkReuseCount i.userId candidate.key newCount = some s') :
    Mirrored (i' :: others) s' := by
  simp only [ReuseStores.setChunkReuseCount, Option.ite_none_right_eq_some,
    Option.some.injEq] at hset
  obtain ⟨-, rfl⟩ := hset
  simp only [ReuseIngest.PaysDebts, hphase] at hpays
  intro c hc o' ho' hkey
  obtain ⟨o, ho, rfl⟩ := List.mem_map.mp ho'
  by_cases hslot : o.slot = (i.userId, candidate.key)
  · simp only [if_pos hslot] at hkey ⊢
    have hckey : c.key = candidate.key := hkey.symm.trans (congrArg Prod.snd hslot)
    rcases hpays c hc hckey with hcount | howed
    · exact Or.inl hcount.symm
    · refine Or.inr (owed_cons.mpr (Or.inr ?_))
      exact hslot ▸ howed
  · simp only [if_neg hslot] at hkey ⊢
    refine (h c hc o ho hkey).imp_right fun howed => owed_cons.mpr (Or.inr ?_)
    refine (owed_cons.mp howed).resolve_left fun howes => ?_
    -- the ingest owes this count to one object only
    rw [ReuseIngest.Owes, hphase] at howes
    exact hslot howes.1

/-- A row id that an ingest has looked up is the id of its candidate, or of no row. -/
def ReuseIngest.Tied (i : ReuseIngest) (s : ReuseStores) : Prop :=
  match i.phase with
  | .recording sourceChunkId _ candidate _ _ =>
    sourceChunkId < s.nextId ∧ ∀ c ∈ s.chunks.rows, c.id = sourceChunkId → c.key = candidate.key
  | _ => True

/-- An action that meets its conditions. -/
theorem Mirrored.act {action : ReuseAction} (h : Mirrored (i :: others) s) (htied : i.Tied s)
    (hpays : i.PaysDebts others s action) (hact : i.act w s action = some (s', phase)) :
    Mirrored ({ i with phase } :: others) s' := by
  cases action with
  | storeRows active =>
    obtain ⟨hphase, hres⟩ := ReuseIngest.act_storeRows hact
    cases active with
    | true =>
      obtain ⟨rfl, rfl⟩ := hres
      exact h.storeRows hphase hpays
    | false =>
      obtain ⟨rfl, rfl⟩ := hres
      exact h.of_released hpays
  | checkFence active =>
    obtain ⟨hphase, rfl, rfl⟩ := act_checkFence hact
    cases active with
    | true =>
      refine h.of_owes fun slot count howes => ?_
      rwa [ReuseIngest.Owes, hphase] at howes
    | false => exact h.of_released hpays
  | deleteObjects indices =>
    obtain ⟨hphase, rfl, hchunks, -, hobjects⟩ := act_deleteObjects hact
    refine h.of_subset hchunks hobjects fun slot count howes => ?_
    rwa [ReuseIngest.Owes, hphase] at howes
  | writeObjects landed error =>
    obtain ⟨hphase, rfl, hnext⟩ := act_writeObjects hact
    exact h.writeObjects hphase hpays hnext
  | search response =>
    obtain ⟨rfl, ⟨rest, hphase⟩, -⟩ := act_search hact
    refine h.of_not_owes fun slot count => ?_
    rw [ReuseIngest.Owes, hphase]
    exact not_false
  | confirm outcome =>
    obtain ⟨rfl, ⟨chunk, candidates, rest, hphase⟩, -⟩ := act_confirm hact
    refine h.of_not_owes fun slot count => ?_
    rw [ReuseIngest.Owes, hphase]
    exact not_false
  | record outcome =>
    obtain ⟨id, chunk, candidate, candidates, rest, hphase, hres⟩ := act_record hact
    rcases hres with ⟨rfl, rfl⟩ | ⟨rfl, e, source, hrow, he, hsource, hid, rfl, rfl⟩
    · refine h.of_not_owes fun slot count => ?_
      rw [ReuseIngest.Owes, hphase]
      exact not_false
    · rw [ReuseIngest.Tied, hphase] at htied
      exact h.addEvent hphase hpays htied.2 he hsource hid hrow
  | mirror outcome =>
    obtain ⟨n, chunk, candidate, candidates, rest, hphase, rfl, hres⟩ := act_mirror hact
    rcases hres with ⟨rfl, hmissing⟩ | ⟨rfl, hset⟩
    · cases outcome with
      | returned =>
        -- there is no object to write on
        refine h.of_released fun c hc o ho hkey howes => ?_
        rw [ReuseIngest.Owes, hphase] at howes
        exact absurd (UniqueTable.holds_iff.mpr ⟨o, ho, howes.1⟩) (hmissing rfl)
      | disconnected => exact h.of_released hpays
      | raised => exact h.of_released hpays
    · exact h.setChunkReuseCount hphase hpays hset
  | stop =>
    simp only [ReuseIngest.act, Option.ite_none_left_eq_some, Option.some.injEq,
      Prod.mk.injEq] at hact
    obtain ⟨-, rfl, rfl⟩ := hact
    exact h.of_released hpays

/-! ### Row ids -/

/-- The later stores have the earlier rows under their ids, or no longer, and new ids. -/
def KeepsIds (s s' : ReuseStores) : Prop :=
  s.nextId ≤ s'.nextId ∧ ∀ c' ∈ s'.chunks.rows, c'.id < s.nextId →
    ∃ c ∈ s.chunks.rows, c.id = c'.id ∧ c.key = c'.key

theorem KeepsIds.of_eq (hchunks : s'.chunks = s.chunks) (hnext : s'.nextId = s.nextId) :
    KeepsIds s s' :=
  ⟨hnext.ge, fun c' hc' _ => ⟨c', hchunks ▸ hc', rfl, rfl⟩⟩

theorem ReuseIngest.Tied.keepsIds (htied : i.Tied s) (h : KeepsIds s s') : i.Tied s' := by
  unfold ReuseIngest.Tied at htied ⊢
  split
  · next sourceChunkId _ candidate _ _ hphase =>
    simp only [hphase] at htied
    refine ⟨htied.1.trans_le h.1, fun c' hc' hid => ?_⟩
    obtain ⟨c, hc, hcid, hkey⟩ := h.2 c' hc' (hid ▸ htied.1)
    exact hkey ▸ htied.2 c hc (hcid.trans hid)
  · trivial

theorem keepsIds_storeRows {documentId : String} {append : Bool} {indices : List Nat} :
    KeepsIds s (s.storeRows documentId append indices) := by
  constructor
  · cases append <;> exact Nat.le_add_right _ _
  · intro c' hc' hlt
    rcases mem_storeRows hc' with ⟨hc, -⟩ | ⟨-, -, -, -, hle⟩
    · exact ⟨c', hc, rfl, rfl⟩
    · omega

/-- No action gives an id again. -/
theorem keepsIds_act {action : ReuseAction} (hact : i.act w s action = some (s', phase)) :
    KeepsIds s s' := by
  cases action with
  | storeRows active =>
    obtain ⟨-, hres⟩ := ReuseIngest.act_storeRows hact
    cases active with
    | true => exact hres.1 ▸ keepsIds_storeRows
    | false => exact hres.1 ▸ KeepsIds.of_eq rfl rfl
  | checkFence active => exact (act_checkFence hact).2.1 ▸ KeepsIds.of_eq rfl rfl
  | deleteObjects indices =>
    obtain ⟨-, -, hchunks, hnext, -⟩ := act_deleteObjects hact
    exact KeepsIds.of_eq hchunks hnext
  | writeObjects landed error => exact (act_writeObjects hact).2.1 ▸ KeepsIds.of_eq rfl rfl
  | search response => exact (act_search hact).1 ▸ KeepsIds.of_eq rfl rfl
  | confirm outcome => exact (act_confirm hact).1 ▸ KeepsIds.of_eq rfl rfl
  | record outcome =>
    obtain ⟨_, _, _, _, _, -, hres⟩ := act_record hact
    rcases hres with ⟨rfl, -⟩ | ⟨-, e, _, hrow, -, -, -, rfl, -⟩
    · exact KeepsIds.of_eq rfl rfl
    · refine ⟨Nat.le_refl _, fun c' hc' _ => ?_⟩
      -- the count of a row is no part of its identity
      obtain ⟨c, hc, rfl⟩ := List.mem_map.mp hc'
      exact ⟨c, hc, (key_bump _ c).2.symm, (key_bump _ c).1.symm⟩
  | mirror outcome =>
    obtain ⟨_, _, _, _, _, -, -, hres⟩ := act_mirror hact
    rcases hres with ⟨rfl, -⟩ | ⟨-, hset⟩
    · exact KeepsIds.of_eq rfl rfl
    · simp only [setChunkReuseCount, Option.ite_none_right_eq_some, Option.some.injEq] at hset
      obtain ⟨-, rfl⟩ := hset
      exact KeepsIds.of_eq rfl rfl
  | stop =>
    simp only [ReuseIngest.act, Option.ite_none_left_eq_some, Option.some.injEq,
      Prod.mk.injEq] at hact
    obtain ⟨-, rfl, -⟩ := hact
    exact KeepsIds.of_eq rfl rfl

/-- A row that an ingest goes on to record on is the row of its candidate. -/
theorem tied_act {action : ReuseAction} (hact : i.act w s action = some (s', phase)) :
    ReuseIngest.Tied { i with phase } s' := by
  unfold ReuseIngest.Tied
  split
  · next sourceChunkId _ candidate _ _ hphase =>
    subst hphase
    cases action with
    | confirm outcome =>
      obtain ⟨hs, -, hnext⟩ := act_confirm hact
      subst hs
      -- of what a confirmation goes on to, only the recording has a row, the one that it found
      rcases hnext with ⟨_, h⟩ | ⟨_, _, _, h⟩ | ⟨_, _, _, _, source, hsource, h⟩
      · exact absurd h nofun
      · exact absurd h nofun
      · simp only [ReusePhase.recording.injEq] at h
        obtain ⟨rfl, -, rfl, -, -⟩ := h
        obtain ⟨hmem, hkey⟩ := UniqueTable.find?_eq_some.mp hsource
        exact ⟨ReuseStores.fresh _ source hmem,
          fun c hc hid => ReuseStores.ids _ c hc source hmem hid ▸ hkey⟩
    | storeRows active =>
      cases active with
      | true => exact absurd (ReuseIngest.act_storeRows hact).2.2 nofun
      | false => exact absurd (ReuseIngest.act_storeRows hact).2.2 nofun
    | checkFence active =>
      have := (act_checkFence hact).2.2
      split at this <;> exact absurd this nofun
    | deleteObjects indices => exact absurd (act_deleteObjects hact).2.1 nofun
    | writeObjects landed error =>
      rcases (act_writeObjects hact).2.2 with h | ⟨h, -⟩
      · exact absurd h nofun
      · exact absurd h nofun
    | search response =>
      rcases (act_search hact).2.2 with h | ⟨_, h⟩ | ⟨_, _, _, h⟩
      · exact absurd h nofun
      · exact absurd h nofun
      · exact absurd h nofun
    | record outcome =>
      obtain ⟨_, _, _, _, _, -, hres⟩ := act_record hact
      rcases hres with ⟨-, h⟩ | ⟨-, _, _, _, -, -, -, -, h⟩
      · exact absurd h nofun
      · exact absurd h nofun
    | mirror outcome =>
      obtain ⟨_, _, _, _, _, -, h, -⟩ := act_mirror hact
      exact absurd h nofun
    | stop =>
      simp [ReuseIngest.act] at hact
  · trivial

end

/-! ### Runs -/

/-- The elements of a list are the one at `k` and the others. -/
private theorem mem_iff_eq_or_mem_eraseIdx {α : Type*} {l : List α} {k : Nat} {a : α}
    (h : l[k]? = some a) {x : α} : x ∈ l ↔ x = a ∨ x ∈ l.eraseIdx k := by
  rw [List.mem_eraseIdx_iff_getElem?, List.mem_iff_getElem?]
  constructor
  · rintro ⟨j, hj⟩
    by_cases hjk : j = k
    · subst hjk
      exact Or.inl (Option.some.inj (hj.symm.trans h))
    · exact Or.inr ⟨j, hjk, hj⟩
  · rintro (rfl | ⟨j, -, hj⟩)
    · exact ⟨k, h⟩
    · exact ⟨j, hj⟩

theorem Mirrored.congr {ingests ingests' : List ReuseIngest} {s : ReuseStores}
    (h : Mirrored ingests s) (hsub : ∀ i ∈ ingests, i ∈ ingests') : Mirrored ingests' s := by
  intro c hc o ho hkey
  refine (h c hc o ho hkey).imp_right ?_
  rintro ⟨i, hi, howes⟩
  exact ⟨i, hsub i hi, howes⟩

namespace ReuseSystem

/-- The conditions on an event, before it happens. -/
def PaysDebts (s : ReuseSystem) : ReuseSystemEvent → Prop
  | .act k action =>
    match s.ingests[k]? with
    | none => True
    | some i => i.PaysDebts (s.ingests.eraseIdx k) s.stores action
  | _ => True

instance (s : ReuseSystem) (e : ReuseSystemEvent) : Decidable (s.PaysDebts e) := by
  unfold PaysDebts
  split
  · split <;> infer_instance
  · infer_instance

/-- What holds while ingests are under way. -/
structure Sound (s : ReuseSystem) : Prop where
  mirrored : Mirrored s.ingests s.stores
  tied : ∀ i ∈ s.ingests, i.Tied s.stores

variable {w : ReuseServices} {s s' : ReuseSystem} {e : ReuseSystemEvent}

theorem sound_initial : initial.Sound where
  mirrored _ hc := absurd hc List.not_mem_nil
  tied _ hi := absurd hi List.not_mem_nil

/-- A new attempt owes more, and has looked nothing up. -/
theorem Sound.push (h : s.Sound) (i : ReuseIngest) (hphase : i.phase = .claimed ∨ i.phase = .stored) :
    Sound { s with ingests := s.ingests ++ [i] } where
  mirrored := h.mirrored.congr fun _ hi => List.mem_append_left _ hi
  tied j hj := by
    rcases List.mem_append.mp hj with hj | hj
    · exact h.tied j hj
    · obtain rfl := List.mem_singleton.mp hj
      unfold ReuseIngest.Tied
      rcases hphase with hphase | hphase <;> rw [hphase] <;> trivial

/-- One event that meets its conditions. -/
theorem sound_step (h : s.Sound) (hpays : s.PaysDebts e) (hstep : s.step w e = some s') :
    s'.Sound := by
  cases e with
  | start userId documentId append chunks =>
    obtain rfl := Option.some.inj hstep
    exact h.push _ (Or.inl rfl)
  | again k rows =>
    obtain ⟨i, -, hstep⟩ := Option.bind_eq_some_iff.mp hstep
    split at hstep
    · obtain rfl := Option.some.inj hstep
      exact h.push _ (Or.inl rfl)
    · split at hstep
      · exact absurd hstep nofun
      · obtain rfl := Option.some.inj hstep
        exact h.push _ (Or.inr rfl)
  | act k action =>
    obtain ⟨i, hi, hstep⟩ := Option.bind_eq_some_iff.mp hstep
    obtain ⟨⟨stores, phase⟩, hact, hstep⟩ := Option.bind_eq_some_iff.mp hstep
    obtain rfl := Option.some.inj hstep
    simp only [PaysDebts, hi] at hpays
    obtain ⟨hk, hget⟩ := List.getElem?_eq_some_iff.mp hi
    have hset : (s.ingests.set k { i with phase })[k]? = some { i with phase } :=
      List.getElem?_set_self hk
    have hmem := fun x => mem_iff_eq_or_mem_eraseIdx hset (x := x)
    rw [List.eraseIdx_set_eq] at hmem
    -- the ingestion that acts is taken out of the others
    have hcons : Mirrored (i :: s.ingests.eraseIdx k) s.stores :=
      h.mirrored.congr fun x hx => List.mem_cons.mpr ((mem_iff_eq_or_mem_eraseIdx hi).mp hx)
    have htied := h.tied i (List.mem_of_getElem? hi)
    constructor
    · exact (hcons.act htied hpays hact).congr fun x hx =>
        (hmem x).mpr (List.mem_cons.mp hx)
    · intro j hj
      rcases (hmem j).mp hj with rfl | hj
      · exact tied_act hact
      · exact (h.tied j (List.mem_of_mem_eraseIdx hj)).keepsIds (keepsIds_act hact)

/-- Ingests that have ended owe nothing. -/
theorem Sound.agrees (h : s.Sound) (hended : s.AllEnded) : s.stores.Agrees := by
  intro c hc o ho hkey
  refine (h.mirrored c hc o ho hkey).resolve_right ?_
  rintro ⟨i, hi, howes⟩
  rw [ReuseIngest.Owes, hended i hi] at howes
  exact howes

/-- In a run whose every event meets its conditions the objects have the counts of their rows
    once all ingests have ended. -/
theorem agrees_of_paysDebts {es : List ReuseSystemEvent}
    (hpays : AllSteps (step w) PaysDebts initial es) (hrun : exec (step w) initial es = some s)
    (hended : s.AllEnded) : s.stores.Agrees :=
  (exec_invariant_of_allSteps (fun _ _ _ h hC hstep => sound_step h hC hstep) sound_initial hpays
    hrun).agrees hended

/-! ### Runs that end in a debt -/

/-- Without the check of the texts, which a threshold of 0 turns off. -/
def vectorsOnly : ReuseServices where
  minChunkChars := 1
  textSimilarityThreshold := 0
  ratio _ _ := 0
  nearObject _ objects := objects

/-- The ingest `k`, of a document of one chunk, up to its detection. -/
def storing (k : Nat) (documentId : String) : List ReuseSystemEvent :=
  [.start "u" documentId false [⟨0, "x"⟩], .act k (.storeRows true), .act k (.checkFence true),
    .act k (.deleteObjects []), .act k (.writeObjects [true] false)]

/-- A detection that finds no other document's chunk. -/
def alone (k : Nat) : List ReuseSystemEvent :=
  [.act k (.search (some [])), .act k (.confirm .returned), .act k (.search none)]

/-- A detection that finds the chunk of the document `old`, up to the call that counts it. -/
def counting (k : Nat) : List ReuseSystemEvent :=
  [.act k (.search (some [⟨⟨"old", 0⟩, "x"⟩])), .act k (.confirm .returned),
    .act k (.record .returned)]

/-- The rest of a detection. -/
def finishing (k : Nat) : List ReuseSystemEvent :=
  [.act k (.confirm .returned), .act k (.search none)]

/-- A mirror write that fails, and a retry of its activity, which finds the event recorded. -/
def lostMirror : List ReuseSystemEvent :=
  storing 0 "old" ++ alone 0 ++ storing 1 "new" ++ counting 1 ++
    [.act 1 (.mirror .raised), .act 1 .stop, .again 1 false, .act 2 (.checkFence true),
      .act 2 (.deleteObjects [0]), .act 2 (.writeObjects [true] false)] ++
    counting 2 ++ finishing 2

/-- Two detections whose mirror writes land in the other order. -/
def crossedMirrors : List ReuseSystemEvent :=
  storing 0 "old" ++ alone 0 ++ storing 1 "new" ++ storing 2 "newer" ++ counting 1 ++ counting 2 ++
    [.act 2 (.mirror .returned), .act 1 (.mirror .returned)] ++ finishing 1 ++ finishing 2

/-- A store that is attempted again after its chunk has been reused. -/
def replayedStore : List ReuseSystemEvent :=
  storing 0 "old" ++ [.act 0 .stop] ++ storing 1 "new" ++ counting 1 ++
    [.act 1 (.mirror .returned)] ++ finishing 1 ++
    [.again 0 false, .act 2 (.checkFence true), .act 2 (.deleteObjects [0]),
      .act 2 (.writeObjects [true] false)] ++ alone 2

/-- Each of the three ends with an object whose count is not that of its row. -/
theorem not_agrees_lost_crossed_replayed :
    (∃ s ∈ exec (step vectorsOnly) initial lostMirror, s.AllEnded ∧ ¬ s.stores.Agrees) ∧
      (∃ s ∈ exec (step vectorsOnly) initial crossedMirrors, s.AllEnded ∧ ¬ s.stores.Agrees) ∧
      ∃ s ∈ exec (step vectorsOnly) initial replayedStore, s.AllEnded ∧ ¬ s.stores.Agrees := by
  decide +kernel

/-- Two detections whose mirror writes land in the order of their counts, and a re-ingest of
    the chunk that they have matched. -/
def orderedMirrors : List ReuseSystemEvent :=
  storing 0 "old" ++ alone 0 ++ storing 1 "new" ++ storing 2 "newer" ++ counting 1 ++ counting 2 ++
    [.act 1 (.mirror .raised), .act 2 (.mirror .returned)] ++ finishing 1 ++ finishing 2 ++
    [.start "u" "old" false [⟨0, "x"⟩], .act 3 (.storeRows true), .act 3 (.checkFence true),
      .act 3 (.deleteObjects [0]), .act 3 (.writeObjects [true] false)] ++ alone 3

theorem agrees_of_paysDebts_ordered :
    ∃ s ∈ exec (step vectorsOnly) initial orderedMirrors, s.stores.Agrees := by
  have hrun : ∀ s ∈ exec (step vectorsOnly) initial orderedMirrors, s.AllEnded := by
    decide +kernel
  obtain ⟨s, hs⟩ := Option.isSome_iff_exists.mp
    (by decide +kernel : (exec (step vectorsOnly) initial orderedMirrors).isSome = true)
  exact ⟨s, hs, agrees_of_paysDebts (by decide +kernel) hs (hrun s hs)⟩

end ReuseSystem

end Inherent
