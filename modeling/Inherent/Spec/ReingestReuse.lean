import Inherent.Spec.ReuseLedger

/-!
# A document that is ingested again

The ledger keeps an unchanged document from being recorded twice against the same rows.  It
knows nothing of which document is older: a copy that came later is matched like an earlier
one, and either one brings new rows whenever it is ingested.
-/

namespace Inherent

/-- Ingesting the document, however its calls end, adds no event and changes no count. -/
def RecordsNothing (w : ReuseServices) (s : ReuseStores) (i : Ingest) : Prop :=
  ∀ calls, (∀ e ∈ (w.ingest s { i with calls }).events.rows, e ∈ s.events.rows) ∧
    ∀ c ∈ s.chunks.rows, ∀ c' ∈ (w.ingest s { i with calls }).chunks.rows,
      c'.key = c.key → c'.reuseCount = c.reuseCount

open ReuseStores

variable {w : ReuseServices} {i : Ingest} {s : ReuseStores} {before after : List Ingest}

/-- The indices of a document that is replaced. -/
theorem mem_indices_iff (hreplace : i.append = false) {k : Nat} :
    k ∈ (i.chunks s).map ReusingChunk.chunkIndex ↔ k < i.contents.length := by
  simp only [Ingest.chunks, hreplace, Bool.false_eq_true, if_false, List.map_map,
    Function.comp_def, List.mem_map, Prod.exists, exists_eq_right]
  constructor
  · rintro ⟨content, h⟩
    simpa using List.snd_lt_of_mem_zipIdx h
  · intro h
    exact ⟨i.contents[k], List.mem_zipIdx_iff_getElem?.mpr (List.getElem?_eq_getElem h)⟩

/-- A replacing ingest brings a row for each of its chunks. -/
theorem exists_chunkId_ingest (hreplace : i.append = false) {k : Nat}
    (h : k < i.contents.length) : ∃ n, (w.ingest s i).chunkId ⟨i.documentId, k⟩ = some n := by
  obtain ⟨objects, hobjects⟩ := i.written_rows s
  obtain ⟨n, hn⟩ := exists_chunkId_insertRows i.documentId
    (s := if i.append then s else s.deleteRows i.documentId)
    ((mem_indices_iff (s := s) hreplace).mpr h)
  exact ⟨n, (recorded_ingest.ids _).trans (hobjects ▸ hn)⟩

/-- The rows of a document are those of its last ingest. -/
theorem lt_length_of_chunkId (hreplace : i.append = false)
    (hlast : ∀ j ∈ after, j.documentId ≠ i.documentId) {k n : Nat}
    (h : (w.run (before ++ i :: after)).chunkId ⟨i.documentId, k⟩ = some n) :
    k < i.contents.length := by
  induction after using List.reverseRecOn generalizing n with
  | nil =>
    rw [ReuseServices.run, List.foldl_append] at h
    rcases Ingest.chunkId_written ((recorded_ingest.ids _).symm.trans h) with
      ⟨-, hkept⟩ | ⟨-, -, hindex⟩
    · exact absurd ⟨hreplace, rfl⟩ hkept
    · exact (mem_indices_iff hreplace).mp hindex
  | append_singleton after j ih =>
    rw [← List.cons_append, ← List.append_assoc, ReuseServices.run, List.foldl_append] at h
    rcases Ingest.chunkId_written ((recorded_ingest.ids _).symm.trans h) with
      ⟨hs, -⟩ | ⟨-, hdoc, -⟩
    · exact ih (fun j' hj' => hlast j' (List.mem_append_left _ hj')) hs
    · -- the ingest of another document brings no row of this one
      exact absurd hdoc.symm (hlast j (List.mem_append_right _ (List.mem_singleton_self j)))

/-- The rows that a replacing ingest brings are not reused. -/
theorem reuseCount_own (hs : s.Counted) (hreplace : i.append = false) {c : ReuseRow}
    (hc : c ∈ (w.ingest s i).chunks.rows) (hdoc : c.key.documentId = i.documentId) :
    c.reuseCount = 0 := by
  have hwritten : (i.written s).chunkId c.key = some c.id :=
    (recorded_ingest.ids c.key).symm.trans (chunkId_of_mem hc)
  rw [(recorded_ingest.counted (Ingest.counted_written hs)).eq_zero_iff hc]
  intro e he hid
  rcases (recorded_ingest.events e).mp he with he | ⟨m, hm, hkey, -, -⟩
  · obtain ⟨-, key, hkey, hkept⟩ := Ingest.mem_events_written.mp he
    -- the event is on a row of before, and this row is new
    rcases Ingest.chunkId_written hwritten with ⟨-, hkept⟩ | ⟨hle, -, -⟩
    · exact hkept ⟨hreplace, hdoc.symm⟩
    · have := lt_nextId_of_chunkId hkey
      omega
  · have hsame : m.1 = c.key := key_eq_of_chunkId (hid ▸ hkey) hwritten
    exact documentId_of_mem_matches hm (hsame ▸ hdoc)

/-- The rows of the other documents keep their events when none is added. -/
theorem reuseCount_other (hs : s.Counted)
    (hevents : ∀ e ∈ (w.ingest s i).events.rows, e ∈ s.events.rows) {c c' : ReuseRow}
    (hc : c ∈ s.chunks.rows) (hc' : c' ∈ (w.ingest s i).chunks.rows) (hkey : c'.key = c.key)
    (hdoc : c.key.documentId ≠ i.documentId) : c'.reuseCount = c.reuseCount := by
  have hkept : ¬ i.Replaces c.key.documentId := fun h => hdoc h.2.symm
  have hwritten := Ingest.chunkId_written_of_some (chunkId_of_mem hc) hkept
  have hid : c'.id = c.id := by
    have hnew := (recorded_ingest (w := w)).ids c.key |>.trans hwritten
    rw [← hkey, chunkId_of_mem hc'] at hnew
    exact Option.some.inj hnew
  rw [recorded_ingest.counted (Ingest.counted_written hs) c' hc', hs c hc, hid,
    List.countP_eq_length_filter, List.countP_eq_length_filter]
  have hunique : ∀ t : UniqueTable (id : ChunkReuseEvent → ChunkReuseEvent), t.rows.Nodup :=
    fun t => List.map_id t.rows ▸ t.unique
  refine List.Perm.length_eq ((List.perm_ext_iff_of_nodup ((hunique _).filter _)
    ((hunique _).filter _)).mpr fun e => ?_)
  rw [List.mem_filter, List.mem_filter]
  refine and_congr_left fun heid => ⟨hevents e, fun he => ?_⟩
  -- the event is on a row that stays
  refine (recorded_ingest.events e).mpr (Or.inl (Ingest.mem_events_written.mpr ⟨he, c.key, ?_,
    hkept⟩))
  rw [chunkId_of_mem hc, of_decide_eq_true heid]

/-- The matches of an ingest whose calls fail are matches of one whose calls return. -/
theorem matches_subset (calls : ReuseCall → ReuseOutcome) :
    ∀ m ∈ Ingest.matches { i with calls } w s,
      m ∈ Ingest.matches { i with calls := fun _ => .returned } w s := by
  intro m hm
  obtain ⟨chunk, hchunk, hm⟩ := List.mem_flatMap.mp hm
  refine List.mem_flatMap.mpr ⟨chunk, hchunk, ?_⟩
  split at hm
  · next hlong =>
    obtain ⟨candidate, hcandidate, rfl⟩ := List.mem_map.mp hm
    obtain ⟨hcandidate, hrecords⟩ := List.mem_filter.mp hcandidate
    rw [if_pos ⟨hlong.1, rfl⟩]
    refine List.mem_map.mpr ⟨candidate, List.mem_filter.mpr ⟨hcandidate, ?_⟩, rfl⟩
    exact decide_eq_true ⟨(of_decide_eq_true hrecords).1, rfl, rfl⟩
  · exact absurd hm List.not_mem_nil

/-- The matches that the ingest would find now have been recorded, and nothing has matched
    the document. -/
structure Settled (w : ReuseServices) (history : List Ingest) (i : Ingest) : Prop where
  known : ∀ m ∈ Ingest.matches { i with calls := fun _ => .returned } w (w.run history),
    (w.run history).chunks.Holds m.1 → Reused w history i.documentId m.1 m.2
  unmatched : ∀ documentId k hash, ¬ Reused w history documentId ⟨i.documentId, k⟩ hash

/-- A settled document can be ingested again. -/
theorem Settled.recordsNothing {history : List Ingest} (hreplace : i.append = false)
    (h : Settled w history i) : RecordsNothing w (w.run history) i := by
  intro calls
  have hevents : ∀ e ∈ (w.ingest (w.run history) { i with calls }).events.rows,
      e ∈ (w.run history).events.rows := by
    intro e he
    rcases (recorded_ingest.events e).mp he with he | ⟨m, hm, hkey, hdoc, hhash⟩
    · exact (Ingest.mem_events_written.mp he).1
    · rcases Ingest.chunkId_written hkey with ⟨hid, -⟩ | ⟨-, hown, -⟩
      · -- the row is an earlier one, and the ledger has the match
        have hreused := h.known m (matches_subset calls m hm)
          (holds_iff_chunkId.mpr ⟨_, hid⟩)
        have hmem := (mem_ledger_iff hid).mpr hreused
        cases e
        cases hdoc
        cases hhash
        exact hmem
      · exact absurd hown (documentId_of_mem_matches hm)
  refine ⟨hevents, fun c hc c' hc' hkey => ?_⟩
  by_cases hdoc : c.key.documentId = i.documentId
  · have hzero : c'.reuseCount = 0 := reuseCount_own (i := { i with calls })
      (counted_run history) hreplace hc' ((congrArg ChunkKey.documentId hkey).trans hdoc)
    rw [hzero, eq_comm, (counted_run history).eq_zero_iff hc]
    intro e he hid
    have hid' : (w.run history).chunkId c.key = some e.sourceChunkId := hid ▸ chunkId_of_mem hc
    have hreused := (mem_ledger_iff hid').mp he
    exact h.unmatched e.reusingDocumentId c.key.chunkIndex e.reusingChunkContentHash
      (hdoc ▸ hreused)
  · exact reuseCount_other (counted_run history) hevents hc hc' hkey hdoc

/-- A document that is ingested again without news was settled. -/
theorem settled_of_recordsNothing (hreplace : i.append = false)
    (hlast : ∀ j ∈ after, j.documentId ≠ i.documentId)
    (h : RecordsNothing w (w.run (before ++ i :: after)) i) :
    Settled w (before ++ i :: after) i := by
  obtain ⟨hevents, hcounts⟩ := h fun _ => .returned
  have hcounted := counted_run (w := w) (before ++ i :: after)
  constructor
  · intro m hm hrow
    obtain ⟨n, hn⟩ := holds_iff_chunkId.mp hrow
    have hkept : ¬ i.Replaces m.1.documentId := fun hr =>
      documentId_of_mem_matches hm hr.2.symm
    -- the event of the match is in the ledger after this ingest, so it was there before
    refine (mem_ledger_iff hn).mp (hevents _ ((recorded_ingest.events _).mpr (Or.inr ?_)))
    exact ⟨m, hm, Ingest.chunkId_written_of_some hn hkept, rfl, rfl⟩
  · intro documentId k hash hreused
    obtain ⟨n, hn⟩ := holds_iff_chunkId.mp (holds_of_reused hreused)
    obtain ⟨c, hc, hkey, hid⟩ := chunkId_eq_some.mp hn
    obtain ⟨n', hn'⟩ := exists_chunkId_ingest (w := w) (i := { i with calls := fun _ => .returned })
      (s := w.run (before ++ i :: after)) hreplace (lt_length_of_chunkId hreplace hlast hn)
    obtain ⟨c', hc', hkey', -⟩ := chunkId_eq_some.mp hn'
    -- the row of the matched chunk has a count, and the row that replaces it has none
    have hzero : c'.reuseCount = 0 := reuseCount_own (i := { i with calls := fun _ => .returned })
      hcounted hreplace hc' (congrArg ChunkKey.documentId hkey')
    have hsame := hcounts c hc c' hc' (hkey'.trans hkey.symm)
    refine ((hcounted.eq_zero_iff hc).mp (hsame.symm.trans hzero)) _
      ((mem_ledger_iff hn).mpr hreused) hid.symm

/-- Right after an ingest whose calls have returned the document is settled. -/
theorem settled_last (hreplace : i.append = false) (hcalls : ∀ call, i.calls call = .returned) :
    Settled w (before ++ [i]) i := by
  have hrun : w.run (before ++ [i]) = w.ingest (w.run before) i := by
    rw [ReuseServices.run, List.foldl_append]
    rfl
  have hself : { i with calls := fun _ => .returned } = i := by
    rw [← funext hcalls]
  constructor
  · intro m hm hrow
    -- the ingest has left the candidates of its own chunks as they were
    have hmatches : i.matches w (w.run (before ++ [i])) = i.matches w (w.run before) := by
      simp only [hrun, Ingest.matches, Ingest.matchesOf, Ingest.chunks, hreplace,
        recorded_ingest.candidates, Ingest.otherDocuments_written, Bool.false_eq_true, if_false]
    rw [hself, hmatches] at hm
    obtain ⟨n, hn⟩ := holds_iff_chunkId.mp hrow
    rw [hrun] at hn
    refine ⟨before, i, [], rfl, rfl, hm, ?_, fun _ h => absurd h List.not_mem_nil⟩
    rcases Ingest.chunkId_written ((recorded_ingest.ids _).symm.trans hn) with
      ⟨hid, -⟩ | ⟨-, hown, -⟩
    · exact holds_iff_chunkId.mpr ⟨n, hid⟩
    · exact absurd hown (documentId_of_mem_matches hm)
  · intro documentId k hash hreused
    rcases reused_append.mp hreused with ⟨-, hkept⟩ | ⟨-, hm, -⟩
    · exact hkept ⟨hreplace, rfl⟩
    · exact documentId_of_mem_matches hm rfl

/-- A document that is ingested twice in a row is recorded once. -/
theorem recordsNothing_last (hreplace : i.append = false)
    (hcalls : ∀ call, i.calls call = .returned) :
    RecordsNothing w (w.run (before ++ [i])) i :=
  (settled_last hreplace hcalls).recordsNothing hreplace

/-- Ingesting an unchanged document again, after any ingests of other documents, records
    nothing exactly when each of its matches has been recorded since the matched document was
    last replaced, and no other document has matched it since its own last ingest. -/
theorem recordsNothing_iff (hreplace : i.append = false)
    (hlast : ∀ j ∈ after, j.documentId ≠ i.documentId) :
    RecordsNothing w (w.run (before ++ i :: after)) i ↔ Settled w (before ++ i :: after) i :=
  ⟨settled_of_recordsNothing hreplace hlast, Settled.recordsNothing hreplace⟩

/-- The default settings, with services that find the chunks of the same text. -/
def sameText : ReuseServices where
  minChunkChars := 40
  textSimilarityThreshold := 7 / 10
  ratio a b := if a = b then 1 else 0
  nearObject content objects := (objects.filter fun o => o.content = content).take 5

/-- A document of one chunk. -/
def onePage (documentId : String) : Ingest where
  userId := "u"
  documentId := documentId
  contents := ["Our refund policy covers every order of the last thirty days."]

/-- An older document that is ingested again behind a newer copy of it, and one whose copy was
    ingested again, unchanged, since. -/
theorem not_recordsNothing_older :
    ¬ RecordsNothing sameText (sameText.run [onePage "old", onePage "new"]) (onePage "old") ∧
      ¬ RecordsNothing sameText
        (sameText.run [onePage "old", onePage "new", onePage "old", onePage "new"])
        (onePage "old") := by
  constructor
  · intro h
    exact absurd (h fun _ => .returned).1 (by decide +kernel)
  · intro h
    exact absurd (h fun _ => .returned).1 (by decide +kernel)

/-- Two copies that take turns, with nothing in between the last two ingests. -/
theorem recordsNothing_iff_turns :
    RecordsNothing sameText
        (sameText.run ([onePage "old", onePage "new"] ++ onePage "old" :: [])) (onePage "old") ↔
      Settled sameText ([onePage "old", onePage "new"] ++ onePage "old" :: []) (onePage "old") :=
  recordsNothing_iff rfl (fun _ h => absurd h List.not_mem_nil)

end Inherent
