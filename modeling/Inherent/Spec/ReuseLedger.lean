import Inherent.Native.ReuseDetection

/-!
# The ledger of chunk reuse

An event of the ledger names the row of its source chunk, which a re-ingest of the source
document deletes and brings anew.  So the ledger knows what the ingests of a document have
matched since the matched documents were last ingested, and nothing of before: an unchanged
document is not recorded again as long as nothing that it matches, and nothing that matches
it, is ingested in between.
-/

namespace Inherent

namespace ReuseStores

variable {s s' : ReuseStores} {key : ChunkKey} {e : ChunkReuseEvent}

/-- The id of the chunk's row. -/
def chunkId (s : ReuseStores) (key : ChunkKey) : Option Nat := (s.getChunkForReuse key).map (·.id)

/-- Each row counts its events. -/
def Counted (s : ReuseStores) : Prop :=
  ∀ c ∈ s.chunks.rows, c.reuseCount = s.events.rows.countP fun e => e.sourceChunkId = c.id

theorem chunkId_eq_some {n : Nat} :
    s.chunkId key = some n ↔ ∃ c ∈ s.chunks.rows, c.key = key ∧ c.id = n := by
  simp only [chunkId, getChunkForReuse, Option.map_eq_some_iff, UniqueTable.find?_eq_some,
    and_assoc]

/-- One id is the id of one chunk. -/
theorem key_eq_of_chunkId {key' : ChunkKey} {n : Nat} (h : s.chunkId key = some n)
    (h' : s.chunkId key' = some n) : key = key' := by
  obtain ⟨c, hc, rfl, hid⟩ := chunkId_eq_some.mp h
  obtain ⟨c', hc', rfl, hid'⟩ := chunkId_eq_some.mp h'
  rw [s.ids c hc c' hc' (hid.trans hid'.symm)]

theorem chunkId_of_mem {c : ReuseRow} (hc : c ∈ s.chunks.rows) : s.chunkId c.key = some c.id :=
  chunkId_eq_some.mpr ⟨c, hc, rfl, rfl⟩

/-- A row without an event has a count of 0, and only such a row. -/
theorem Counted.eq_zero_iff (h : s.Counted) {c : ReuseRow} (hc : c ∈ s.chunks.rows) :
    c.reuseCount = 0 ↔ ∀ e ∈ s.events.rows, e.sourceChunkId ≠ c.id := by
  rw [h c hc, List.countP_eq_zero]
  simp only [decide_eq_true_eq, ne_eq]

/-! ### One event -/

/-- What is recorded by a detection for the document that finds the matches. -/
structure Recorded (documentId : String) (found : List (ChunkKey × Sha256))
    (s s' : ReuseStores) : Prop where
  ids : ∀ key, s'.chunkId key = s.chunkId key
  candidates : ∀ u d, s'.otherDocuments u d = s.otherDocuments u d
  events : ∀ e, e ∈ s'.events.rows ↔ e ∈ s.events.rows ∨
    ∃ m ∈ found, s.chunkId m.1 = some e.sourceChunkId ∧ e.reusingDocumentId = documentId ∧
      e.reusingChunkContentHash = m.2
  counted : s.Counted → s'.Counted

theorem Recorded.refl (documentId : String) (s : ReuseStores) : Recorded documentId [] s s where
  ids _ := rfl
  candidates _ _ := rfl
  events _ := by simp
  counted h := h

theorem Recorded.trans {documentId : String} {found found' : List (ChunkKey × Sha256)}
    {t : ReuseStores} (h : Recorded documentId found s t) (h' : Recorded documentId found' t s') :
    Recorded documentId (found ++ found') s s' where
  ids key := (h'.ids key).trans (h.ids key)
  candidates u d := (h'.candidates u d).trans (h.candidates u d)
  events e := by
    simp only [h'.events, h.events, h.ids, List.mem_append, or_and_right, exists_or, or_assoc]
  counted hs := h'.counted (h.counted hs)

/-- An event on a chunk that the ledger has is no news. -/
theorem recorded_of_holds {documentId : String} {hash : Sha256} {source : ReuseRow}
    (hsource : s.getChunkForReuse key = some source)
    (hholds : s.events.Holds ⟨source.id, documentId, hash⟩) :
    Recorded documentId [(key, hash)] s s where
  ids _ := rfl
  candidates _ _ := rfl
  events e := by
    simp only [List.mem_singleton, exists_eq_left]
    refine ⟨Or.inl, ?_⟩
    rintro (he | ⟨hid, hdoc, hhash⟩)
    · exact he
    · have hsrc : some source.id = some e.sourceChunkId := by
        rw [← hid, chunkId, hsource, Option.map_some]
      obtain ⟨e', he', heq⟩ := UniqueTable.holds_iff.mp hholds
      have : e = e' := by
        cases e
        simp_all
      exact this ▸ he'
  counted h := h

/-- The new event is on its row, whose count goes up by one with it. -/
theorem recorded_addEvent {documentId : String} {hash : Sha256} {source : ReuseRow}
    (hsource : s.getChunkForReuse key = some source)
    (hholds : ¬ s.events.Holds ⟨source.id, documentId, hash⟩) (h) :
    Recorded documentId [(key, hash)] s (s.addEvent ⟨source.id, documentId, hash⟩ h) where
  ids key' := by
    have hrow : (s.addEvent ⟨source.id, documentId, hash⟩ h).getChunkForReuse key' =
        (s.getChunkForReuse key').map (bump source.id) :=
      UniqueTable.find?_update fun c => (key_bump _ c).1
    rw [chunkId, hrow, Option.map_map]
    exact congrArg (fun f => (s.getChunkForReuse key').map f) (funext fun c => (key_bump _ c).2)
  candidates _ _ := rfl
  events e := by
    have hrows : (s.addEvent ⟨source.id, documentId, hash⟩ h).events.rows =
        s.events.rows ++ [⟨source.id, documentId, hash⟩] :=
      UniqueTable.rows_insertNew_of_not_holds hholds
    have hid : s.chunkId key = some source.id := by rw [chunkId, hsource, Option.map_some]
    simp only [hrows, List.mem_append, List.mem_singleton, exists_eq_left, hid]
    cases e
    simp only [ChunkReuseEvent.mk.injEq, Option.some.injEq, eq_comm]
  counted hs := by
    intro c hc
    obtain ⟨d, hd, rfl⟩ := List.mem_map.mp hc
    have hrows : (s.addEvent ⟨source.id, documentId, hash⟩ h).events.rows =
        s.events.rows ++ [⟨source.id, documentId, hash⟩] :=
      UniqueTable.rows_insertNew_of_not_holds hholds
    rw [hrows, List.countP_append, (key_bump _ d).2, ← hs d hd, bump]
    by_cases hid : d.id = source.id
    · simp [hid]
    · simp [hid, Ne.symm hid]

/-- A mirrored count is no news. -/
theorem recorded_setChunkReuseCount {documentId userId : String} {n : Nat}
    (h : s.setChunkReuseCount userId key n = some s') : Recorded documentId [] s s' := by
  simp only [setChunkReuseCount, Option.ite_none_right_eq_some, Option.some.injEq] at h
  obtain ⟨-, rfl⟩ := h
  refine ⟨fun _ => rfl, ?_, fun _ => by simp, fun hs => hs⟩
  intro u d
  simp only [otherDocuments, UniqueTable.update, List.filter_map, List.map_map]
  -- neither the filter nor the candidates read the count
  congr 1
  · funext o
    simp only [Function.comp_apply]
    split <;> rfl
  · congr 1
    funext o
    simp only [Function.comp_apply]
    split <;> rfl

/-- A match without a row is not recorded. -/
theorem recorded_of_absent {documentId : String} {hash : Sha256}
    (h : s.getChunkForReuse key = none) : Recorded documentId [(key, hash)] s s where
  ids _ := rfl
  candidates _ _ := rfl
  events e := by
    simp only [List.mem_singleton, exists_eq_left, chunkId, h, Option.map_none, reduceCtorEq,
      false_and, or_false]
  counted h := h

/-- A call to record an event on a row does not raise. -/
theorem recorded_recordChunkReuse (documentId : String) (hash : Sha256) {source : ReuseRow}
    (hsource : s.getChunkForReuse key = some source) :
    ∃ s' n, s.recordChunkReuse ⟨source.id, documentId, hash⟩ = some (s', n) ∧
      Recorded documentId [(key, hash)] s s' := by
  have hrow : s.rowWithId source.id = some source :=
    rowWithId_eq_some.mpr ⟨(UniqueTable.find?_eq_some.mp hsource).1, rfl⟩
  rcases s.recordChunkReuse_cases ⟨source.id, documentId, hash⟩ with
    ⟨hholds, hrecord⟩ | ⟨hnone, -⟩ | ⟨c, hc, -, hholds, hrecord⟩
  · exact ⟨s, none, hrecord, recorded_of_holds hsource hholds⟩
  · exact absurd (hrow.symm.trans hnone) nofun
  · exact ⟨_, _, hrecord, recorded_addEvent hsource hholds hc⟩

end ReuseStores

open ReuseStores

/-! ### One detection -/

/-- The candidate passes the checks, and the calls that record it return. -/
def Ingest.Records (i : Ingest) (w : ReuseServices) (chunk : ReusingChunk)
    (candidate : ReuseCandidate) : Prop :=
  w.Confirms i.documentId chunk.content candidate ∧
    i.calls (.getChunkForReuse chunk.chunkIndex candidate.key) = .returned ∧
    i.calls (.recordChunkReuse chunk.chunkIndex candidate.key) = .returned

instance (i : Ingest) (w : ReuseServices) (chunk : ReusingChunk) (candidate : ReuseCandidate) :
    Decidable (i.Records w chunk candidate) :=
  inferInstanceAs (Decidable (_ ∧ _ ∧ _))

/-- The matches among the candidates of a chunk: the matched chunk and the chunk's digest. -/
def Ingest.matchesAmong (i : Ingest) (w : ReuseServices) (chunk : ReusingChunk)
    (candidates : List ReuseCandidate) : List (ChunkKey × Sha256) :=
  (candidates.filter fun c => i.Records w chunk c).map fun c => (c.key, ⟨chunk.content⟩)

/-- The matches of some chunks of the document. -/
def Ingest.matchesOf (i : Ingest) (w : ReuseServices) (s : ReuseStores)
    (chunks : List ReusingChunk) : List (ChunkKey × Sha256) :=
  chunks.flatMap fun chunk =>
    if w.LongEnough chunk ∧ i.calls (.findSimilarChunks chunk.chunkIndex) = .returned then
      i.matchesAmong w chunk (w.nearObject chunk.content (s.otherDocuments i.userId i.documentId))
    else []

/-- The matches that an ingest finds and records, with the outcome of its calls. -/
def Ingest.matches (i : Ingest) (w : ReuseServices) (s : ReuseStores) :
    List (ChunkKey × Sha256) :=
  i.matchesOf w s (i.chunks s)

section

variable {w : ReuseServices} {i : Ingest} {s : ReuseStores}

theorem recorded_recordCandidate (chunk : ReusingChunk) (candidate : ReuseCandidate) :
    Recorded i.documentId (i.matchesAmong w chunk [candidate]) s
      (w.recordCandidate i chunk s candidate).1 := by
  by_cases hrec : i.Records w chunk candidate
  · have hfound : i.matchesAmong w chunk [candidate] = [(candidate.key, ⟨chunk.content⟩)] := by
      simp [Ingest.matchesAmong, hrec]
    obtain ⟨hconfirms, hget, hrecord⟩ := hrec
    rw [hfound, ReuseServices.recordCandidate, if_neg (not_not.mpr hconfirms),
      if_neg (not_not.mpr hget)]
    cases hsource : s.getChunkForReuse candidate.key with
    | none => exact recorded_of_absent hsource
    | some source =>
      obtain ⟨s', n, hs', hrecorded⟩ :=
        recorded_recordChunkReuse i.documentId ⟨chunk.content⟩ hsource
      simp only [hrecord, ne_eq, not_true_eq_false, if_false, hs']
      cases n with
      | none => exact hrecorded
      | some n =>
        -- the event is recorded; the mirrored count does not touch the ledger
        cases i.calls (.setChunkReuseCount chunk.chunkIndex candidate.key) with
        | raised => exact hrecorded
        | disconnected => exact hrecorded
        | returned =>
          cases hset : s'.setChunkReuseCount i.userId candidate.key n with
          | none => simpa only [hset] using hrecorded
          | some s'' => simpa only [hset, List.append_nil] using
              hrecorded.trans (recorded_setChunkReuseCount hset)
  · have hfound : i.matchesAmong w chunk [candidate] = [] := by
      simp [Ingest.matchesAmong, hrec]
    rw [hfound, ReuseServices.recordCandidate]
    split
    · exact Recorded.refl _ s
    · next hconfirms =>
      split
      · exact Recorded.refl _ s
      · next hget =>
        split
        · exact Recorded.refl _ s
        · split
          · exact Recorded.refl _ s
          · next hrecord =>
            exact absurd ⟨not_not.mp hconfirms, not_not.mp hget, not_not.mp hrecord⟩ hrec

theorem recorded_confirmAndRecord (chunk : ReusingChunk) (candidates : List ReuseCandidate) :
    Recorded i.documentId (i.matchesAmong w chunk candidates) s
      (w.confirmAndRecord i chunk candidates s).1 := by
  induction candidates generalizing s with
  | nil => exact Recorded.refl _ s
  | cons candidate candidates ih =>
    have hfound : i.matchesAmong w chunk (candidate :: candidates) =
        i.matchesAmong w chunk [candidate] ++ i.matchesAmong w chunk candidates := by
      rw [← List.singleton_append, Ingest.matchesAmong, List.filter_append, List.map_append]
      rfl
    rw [hfound]
    exact (recorded_recordCandidate chunk candidate).trans ih

/-- The detection records the matches of its chunks. -/
theorem recorded_detect (chunks : List ReusingChunk) :
    Recorded i.documentId (i.matchesOf w s chunks) s
      (w.detectAndRecordChunkReuse i chunks s).1 := by
  induction chunks generalizing s with
  | nil => exact Recorded.refl _ s
  | cons chunk chunks ih =>
    rw [Ingest.matchesOf, List.flatMap_cons, ReuseServices.detectAndRecordChunkReuse]
    split
    · have hfirst := recorded_confirmAndRecord (w := w) (i := i) (s := s) chunk
        (w.nearObject chunk.content (s.otherDocuments i.userId i.documentId))
      -- the later chunks see the same candidates
      have hrest := ih (s := (w.confirmAndRecord i chunk
        (w.nearObject chunk.content (s.otherDocuments i.userId i.documentId)) s).1)
      simp only [Ingest.matchesOf, hfirst.candidates] at hrest
      exact hfirst.trans hrest
    · exact ih

/-- A match is with a chunk of another document. -/
theorem documentId_of_mem_matches {m : ChunkKey × Sha256} (h : m ∈ i.matches w s) :
    m.1.documentId ≠ i.documentId := by
  obtain ⟨chunk, -, hm⟩ := List.mem_flatMap.mp h
  split at hm
  · obtain ⟨candidate, hcandidate, rfl⟩ := List.mem_map.mp hm
    exact (of_decide_eq_true (List.mem_filter.mp hcandidate).2).1.2.1
  · exact absurd hm List.not_mem_nil

end

/-! ### One ingest -/

/-- The ingest brings the rows of the document anew. -/
def Ingest.Replaces (i : Ingest) (documentId : String) : Prop :=
  i.append = false ∧ i.documentId = documentId

/-- The stores when the detection starts. -/
def Ingest.written (i : Ingest) (s : ReuseStores) : ReuseStores :=
  let stored :=
    s.storeRows i.documentId i.append ((i.chunks s).map ReusingChunk.chunkIndex)
  let deleted :=
    if i.append ∨ i.calls .deleteDocumentChunks ≠ .returned then stored
    else stored.deleteObjects i.userId i.documentId
  deleted.storeObjects (newObjects i.userId i.documentId (i.chunks s))

namespace ReuseStores

variable {s : ReuseStores} {key : ChunkKey} {n : Nat} {documentId : String}

theorem lt_nextId_of_chunkId (h : s.chunkId key = some n) : n < s.nextId := by
  obtain ⟨c, hc, -, rfl⟩ := chunkId_eq_some.mp h
  exact s.fresh c hc

/-- The source chunk of an event has a row. -/
theorem exists_chunkId {e : ChunkReuseEvent} (h : e ∈ s.events.rows) :
    ∃ key, s.chunkId key = some e.sourceChunkId := by
  obtain ⟨c, hc, hid⟩ := s.referenced e h
  exact ⟨c.key, hid ▸ chunkId_of_mem hc⟩

theorem chunkId_deleteRows :
    (s.deleteRows documentId).chunkId key = some n ↔
      s.chunkId key = some n ∧ key.documentId ≠ documentId := by
  simp only [chunkId_eq_some, deleteRows, UniqueTable.mem_filter, decide_eq_true_eq]
  constructor
  · rintro ⟨c, ⟨hc, hne⟩, rfl, hid⟩
    exact ⟨⟨c, hc, rfl, hid⟩, hne⟩
  · rintro ⟨⟨c, hc, rfl, hid⟩, hne⟩
    exact ⟨c, ⟨hc, hne⟩, rfl, hid⟩

/-- A delete takes the events of the rows with them. -/
theorem mem_events_deleteRows {e : ChunkReuseEvent} :
    e ∈ (s.deleteRows documentId).events.rows ↔ e ∈ s.events.rows ∧
      ∃ key, s.chunkId key = some e.sourceChunkId ∧ key.documentId ≠ documentId := by
  simp only [deleteRows, UniqueTable.mem_filter, decide_eq_true_eq, chunkId_eq_some]
  refine and_congr_right fun _ => ?_
  constructor
  · rintro ⟨c, hc, hid, hne⟩
    exact ⟨c.key, ⟨c, hc, rfl, hid⟩, hne⟩
  · rintro ⟨_, ⟨c, hc, rfl, hid⟩, hne⟩
    exact ⟨c, hc, hid, hne⟩

/-- A row after an insert was there before, or is a new one of the document. -/
theorem chunkId_insertRows {indices : List Nat}
    (h : (s.insertRows documentId indices).chunkId key = some n) :
    s.chunkId key = some n ∨
      s.nextId ≤ n ∧ key.documentId = documentId ∧ key.chunkIndex ∈ indices := by
  obtain ⟨c, hc, rfl, rfl⟩ := chunkId_eq_some.mp h
  rcases UniqueTable.mem_of_mem_insertAll hc with hc | hc
  · exact Or.inl (chunkId_of_mem hc)
  · obtain ⟨hle, -, hget, hdoc, -⟩ := id_of_mem_newRows hc
    exact Or.inr ⟨hle, hdoc, List.mem_of_getElem? hget⟩

theorem chunkId_insertRows_of_some {indices : List Nat} (h : s.chunkId key = some n) :
    (s.insertRows documentId indices).chunkId key = some n := by
  obtain ⟨c, hc, hkey, hid⟩ := chunkId_eq_some.mp h
  exact chunkId_eq_some.mpr ⟨c, UniqueTable.mem_insertAll_of_mem _ hc, hkey, hid⟩

/-- Every inserted index has a row. -/
theorem exists_chunkId_insertRows (documentId : String) {indices : List Nat} {k : Nat}
    (h : k ∈ indices) :
    ∃ n, (s.insertRows documentId indices).chunkId ⟨documentId, k⟩ = some n := by
  obtain ⟨j, hj, hget⟩ := List.mem_iff_getElem.mp h
  have hmem : (⟨s.nextId + j, ⟨documentId, k⟩, 0⟩ : ReuseRow) ∈ s.newRows documentId indices :=
    List.mem_map.mpr ⟨(k, j), List.mem_zipIdx_iff_getElem?.mpr
      (List.getElem?_eq_some_iff.mpr ⟨hj, hget⟩), rfl⟩
  obtain ⟨c, hc, hkey⟩ := UniqueTable.holds_iff.mp
    (UniqueTable.holds_insertAll (t := s.chunks) hmem)
  exact ⟨c.id, chunkId_eq_some.mpr ⟨c, hc, hkey, rfl⟩⟩

theorem Counted.deleteRows (h : s.Counted) : (s.deleteRows documentId).Counted := by
  intro c hc
  obtain ⟨hc, hne⟩ := UniqueTable.mem_filter.mp hc
  rw [h c hc]
  -- the events of a row that stays, stay
  simp only [ReuseStores.deleteRows, UniqueTable.filter, List.countP_filter]
  refine List.countP_congr fun e _ => ?_
  simp only [decide_eq_true_eq, Bool.and_eq_true]
  refine ⟨fun hid => ⟨hid, c, hc, hid.symm, of_decide_eq_true hne⟩, And.left⟩

theorem Counted.insertRows (h : s.Counted) (indices : List Nat) :
    (s.insertRows documentId indices).Counted := by
  intro c hc
  rcases UniqueTable.mem_of_mem_insertAll hc with hc | hc
  · exact h c hc
  · obtain ⟨hle, -, -, -, hzero⟩ := id_of_mem_newRows hc
    rw [hzero, eq_comm, List.countP_eq_zero]
    intro e he hid
    -- no event references an id that is given now
    obtain ⟨c', hc', hid'⟩ := s.referenced e he
    have := s.fresh c' hc'
    have := of_decide_eq_true hid
    omega

/-- A write of the document's objects leaves the candidates for its chunks. -/
theorem otherDocuments_storeObjects {userId : String} {chunks : List ReusingChunk} :
    (s.storeObjects (newObjects userId documentId chunks)).otherDocuments userId documentId =
      s.otherDocuments userId documentId := by
  have hown : ∀ o ∈ newObjects userId documentId chunks, o.key.documentId = documentId := by
    intro o ho
    obtain ⟨chunk, -, rfl⟩ := List.mem_map.mp ho
    rfl
  have hput : ∀ (objects : List ReuseObject) (t : UniqueTable ReuseObject.slot),
      (∀ o ∈ objects, o.key.documentId = documentId) →
      (t.putAll objects).rows.filter (fun o => o.userId = userId ∧ o.key.documentId ≠ documentId)
        = t.rows.filter fun o => o.userId = userId ∧ o.key.documentId ≠ documentId := by
    intro objects
    induction objects with
    | nil => exact fun t _ => rfl
    | cons o objects ih =>
      intro t ht
      have hdoc := ht o List.mem_cons_self
      have hrest := ih (t.put o) fun o' ho' => ht o' (List.mem_cons_of_mem _ ho')
      refine hrest.trans ?_
      rw [UniqueTable.put, List.filter_append, List.filter_filter]
      simp only [List.filter_cons, hdoc, ne_eq, not_true_eq_false, and_false, decide_false,
        Bool.false_eq_true, if_false, List.filter_nil, List.append_nil]
      refine List.filter_congr fun o' _ => ?_
      -- an object that is written over is one of the document
      rw [Bool.and_eq_left_iff_imp]
      intro hother
      refine decide_eq_true fun hslot => ?_
      exact (of_decide_eq_true hother).2 (hdoc ▸ congrArg (fun p => p.2.documentId) hslot)
  exact congrArg (List.map fun o : ReuseObject => (⟨o.key, o.content⟩ : ReuseCandidate))
    (hput _ s.objects hown)

theorem otherDocuments_deleteObjects {userId : String} :
    (s.deleteObjects userId documentId).otherDocuments userId documentId =
      s.otherDocuments userId documentId := by
  simp only [otherDocuments, deleteObjects, UniqueTable.filter, List.filter_filter]
  congr 1
  refine List.filter_congr fun o _ => ?_
  rw [Bool.and_eq_left_iff_imp]
  intro hother
  exact decide_eq_true fun hown => (of_decide_eq_true hother).2 hown.2

theorem otherDocuments_storeRows {userId : String} {append : Bool} {indices : List Nat} :
    (s.storeRows documentId append indices).otherDocuments userId documentId =
      s.otherDocuments userId documentId := by
  cases append <;> rfl

end ReuseStores

section

variable {w : ReuseServices} {i : Ingest} {s : ReuseStores} {key : ChunkKey} {n : Nat}

/-- The objects have no part in the ids, the ledger and its counts. -/
theorem Ingest.written_rows (i : Ingest) (s : ReuseStores) :
    ∃ objects, i.written s = { s.storeRows i.documentId i.append
      ((i.chunks s).map ReusingChunk.chunkIndex) with objects } := by
  unfold Ingest.written
  split <;> exact ⟨_, rfl⟩

/-- A row when the detection starts was there before, or the ingest has brought it. -/
theorem Ingest.chunkId_written (h : (i.written s).chunkId key = some n) :
    (s.chunkId key = some n ∧ ¬ i.Replaces key.documentId) ∨
      (s.nextId ≤ n ∧ key.documentId = i.documentId ∧
        key.chunkIndex ∈ (i.chunks s).map ReusingChunk.chunkIndex) := by
  obtain ⟨objects, hobjects⟩ := i.written_rows s
  rw [hobjects] at h
  rcases chunkId_insertRows h with h | ⟨hle, hnew⟩
  · left
    cases happend : i.append with
    | true =>
      rw [happend] at h
      exact ⟨h, fun hr => absurd (hr.1.symm.trans happend) nofun⟩
    | false =>
      rw [happend] at h
      obtain ⟨hs, hne⟩ := chunkId_deleteRows.mp h
      exact ⟨hs, fun hr => hne hr.2.symm⟩
  · refine Or.inr ⟨?_, hnew⟩
    split at hle
    · exact hle
    · exact hle

theorem Ingest.chunkId_written_of_some (h : s.chunkId key = some n)
    (hkept : ¬ i.Replaces key.documentId) : (i.written s).chunkId key = some n := by
  obtain ⟨objects, hobjects⟩ := i.written_rows s
  rw [hobjects]
  refine chunkId_insertRows_of_some (s := if i.append then s else s.deleteRows i.documentId) ?_
  cases happend : i.append with
  | true => exact h
  | false => exact chunkId_deleteRows.mpr ⟨h, fun hdoc => hkept ⟨happend, hdoc.symm⟩⟩

/-- The events when the detection starts are those on rows that the ingest has kept. -/
theorem Ingest.mem_events_written {e : ChunkReuseEvent} :
    e ∈ (i.written s).events.rows ↔ e ∈ s.events.rows ∧
      ∃ key, s.chunkId key = some e.sourceChunkId ∧ ¬ i.Replaces key.documentId := by
  obtain ⟨objects, hobjects⟩ := i.written_rows s
  rw [hobjects]
  cases happend : i.append with
  | true =>
    refine ⟨fun he => ⟨he, ?_⟩, And.left⟩
    obtain ⟨key, hkey⟩ := exists_chunkId (s := s) he
    exact ⟨key, hkey, fun hr => absurd (hr.1.symm.trans happend) nofun⟩
  | false =>
    refine mem_events_deleteRows.trans (and_congr_right fun _ => exists_congr fun key => ?_)
    refine and_congr_right fun _ => not_congr ⟨fun h => ⟨happend, h.symm⟩, fun h => h.2.symm⟩

theorem Ingest.counted_written (h : s.Counted) : (i.written s).Counted := by
  obtain ⟨objects, hobjects⟩ := i.written_rows s
  rw [hobjects]
  cases i.append with
  | true => exact h.insertRows _
  | false => exact h.deleteRows.insertRows _

theorem Ingest.otherDocuments_written :
    (i.written s).otherDocuments i.userId i.documentId =
      s.otherDocuments i.userId i.documentId := by
  unfold Ingest.written
  rw [otherDocuments_storeObjects]
  split
  · exact otherDocuments_storeRows
  · exact otherDocuments_deleteObjects.trans otherDocuments_storeRows

/-- An ingest records its matches, on the rows that are there when its detection starts. -/
theorem recorded_ingest :
    Recorded i.documentId (i.matches w s) (i.written s) (w.ingest s i) := by
  have hmatches : i.matchesOf w (i.written s) (i.chunks s) = i.matches w s := by
    simp only [Ingest.matches, Ingest.matchesOf, Ingest.otherDocuments_written]
  exact hmatches ▸ recorded_detect (i.chunks s)

/-- The counts of the rows are those of the ledger, after every history. -/
theorem counted_run (history : List Ingest) : (w.run history).Counted := by
  induction history using List.reverseRecOn with
  | nil => exact fun c hc => absurd hc List.not_mem_nil
  | append_singleton history i ih =>
    rw [ReuseServices.run, List.foldl_append]
    exact recorded_ingest.counted (Ingest.counted_written ih)

/-! ### A history -/

/-- Since the last replacing ingest of the matched document, an ingest of the document has
    matched the chunk, with the digest. -/
def Reused (w : ReuseServices) (history : List Ingest) (documentId : String) (key : ChunkKey)
    (hash : Sha256) : Prop :=
  ∃ before i after, history = before ++ i :: after ∧ i.documentId = documentId ∧
    (key, hash) ∈ i.matches w (w.run before) ∧ (w.run before).chunks.Holds key ∧
    ∀ later ∈ after, ¬ later.Replaces key.documentId

variable {history : List Ingest} {documentId : String} {hash : Sha256}

/-- The last ingest of a history has matched the chunk, or an earlier one has and the last
    does not replace the chunk. -/
theorem reused_append :
    Reused w (history ++ [i]) documentId key hash ↔
      (Reused w history documentId key hash ∧ ¬ i.Replaces key.documentId) ∨
      (i.documentId = documentId ∧ (key, hash) ∈ i.matches w (w.run history) ∧
        (w.run history).chunks.Holds key) := by
  constructor
  · rintro ⟨before, j, after, hsplit, hdoc, hmatch, hrow, hlater⟩
    rcases List.eq_nil_or_concat after with rfl | ⟨after, last, rfl⟩
    · obtain ⟨rfl, hij⟩ := List.append_inj' hsplit rfl
      obtain rfl : i = j := by simpa using hij
      exact Or.inr ⟨hdoc, hmatch, hrow⟩
    · rw [List.concat_eq_append, ← List.cons_append, ← List.append_assoc] at hsplit
      obtain ⟨rfl, hij⟩ := List.append_inj' hsplit rfl
      obtain rfl : i = last := by simpa using hij
      rw [List.concat_eq_append] at hlater
      refine Or.inl ⟨⟨before, j, after, rfl, hdoc, hmatch, hrow, ?_⟩, ?_⟩
      · exact fun later h => hlater later (List.mem_append_left _ h)
      · exact hlater i (List.mem_append_right _ (List.mem_singleton_self i))
  · rintro (⟨⟨before, j, after, rfl, hdoc, hmatch, hrow, hlater⟩, hkept⟩ | ⟨hdoc, hmatch, hrow⟩)
    · refine ⟨before, j, after ++ [i], by simp, hdoc, hmatch, hrow, ?_⟩
      intro later h
      rcases List.mem_append.mp h with h | h
      · exact hlater later h
      · exact List.mem_singleton.mp h ▸ hkept
    · exact ⟨history, i, [], rfl, hdoc, hmatch, hrow, fun _ h => absurd h List.not_mem_nil⟩

theorem holds_iff_chunkId : s.chunks.Holds key ↔ ∃ n, s.chunkId key = some n := by
  simp only [UniqueTable.holds_iff, chunkId_eq_some]
  constructor
  · rintro ⟨c, hc, hkey⟩
    exact ⟨c.id, c, hc, hkey, rfl⟩
  · rintro ⟨-, c, hc, hkey, -⟩
    exact ⟨c, hc, hkey⟩

/-- A chunk that has been matched still has its row. -/
theorem holds_of_reused (h : Reused w history documentId key hash) :
    (w.run history).chunks.Holds key := by
  induction history using List.reverseRecOn with
  | nil =>
    obtain ⟨before, j, after, hsplit, -⟩ := h
    exact absurd hsplit (by simp)
  | append_singleton history i ih =>
    have hkept : (w.run history).chunks.Holds key ∧ ¬ i.Replaces key.documentId := by
      rcases reused_append.mp h with ⟨h, hkept⟩ | ⟨-, hmatch, hrow⟩
      · exact ⟨ih h, hkept⟩
      · exact ⟨hrow, fun hr => documentId_of_mem_matches hmatch hr.2.symm⟩
    obtain ⟨n, hn⟩ := holds_iff_chunkId.mp hkept.1
    rw [ReuseServices.run, List.foldl_append, holds_iff_chunkId]
    exact ⟨n, (recorded_ingest.ids key).trans (Ingest.chunkId_written_of_some hn hkept.2)⟩

/-- What the ledger holds: the matches since the matched document was last ingested. -/
theorem mem_ledger_iff (hid : (w.run history).chunkId key = some n) :
    ⟨n, documentId, hash⟩ ∈ (w.run history).events.rows ↔
      Reused w history documentId key hash := by
  induction history using List.reverseRecOn generalizing key n documentId hash with
  | nil => exact absurd hid nofun
  | append_singleton history i ih =>
    have hrun : w.run (history ++ [i]) = w.ingest (w.run history) i := by
      rw [ReuseServices.run, List.foldl_append]
      rfl
    rw [hrun] at hid ⊢
    have hwritten : (i.written (w.run history)).chunkId key = some n :=
      (recorded_ingest.ids key).symm.trans hid
    rw [recorded_ingest.events, Ingest.mem_events_written, reused_append]
    refine or_congr ?_ ?_
    · -- an earlier event, on a row that this ingest has kept
      constructor
      · rintro ⟨he, key', hkey', hkept⟩
        have hsame : key' = key :=
          key_eq_of_chunkId (Ingest.chunkId_written_of_some hkey' hkept) hwritten
        subst hsame
        exact ⟨(ih hkey').mp he, hkept⟩
      · rintro ⟨hreused, hkept⟩
        obtain ⟨n', hn'⟩ := holds_iff_chunkId.mp (holds_of_reused hreused)
        have hsame : n' = n := Option.some.inj
          ((Ingest.chunkId_written_of_some hn' hkept).symm.trans hwritten)
        subst hsame
        exact ⟨(ih hn').mpr hreused, key, hn', hkept⟩
    · -- an event of this ingest
      constructor
      · rintro ⟨m, hm, hkey', hdoc, hhash⟩
        have hsame : m.1 = key := key_eq_of_chunkId hkey' hwritten
        have hm' : (key, hash) = m := Prod.ext hsame.symm hhash
        refine ⟨hdoc.symm, hm' ▸ hm, ?_⟩
        rcases Ingest.chunkId_written hwritten with ⟨hs, -⟩ | ⟨-, hown, -⟩
        · exact holds_iff_chunkId.mpr ⟨n, hs⟩
        · exact absurd (hsame ▸ hown) (documentId_of_mem_matches hm)
      · rintro ⟨hdoc, hm, -⟩
        exact ⟨(key, hash), hm, hwritten, hdoc.symm, rfl⟩

end

end Inherent
