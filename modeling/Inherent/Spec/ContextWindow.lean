import Inherent.ForStd.FirstOccurrence
import Inherent.ForStd.StableSort
import Inherent.Native.ContextWindow

/-!
# Context windows by merged ranges

The rows that the merged ranges fetch are a filter of the user's rows in the order of the query,
and the window of a match selects from them what it would select from all of the user's rows,
because the ranges cover it (`IntervalMerge.covers_mergeSpans`).
-/

namespace Inherent

open IntervalMerge StableSort

variable {matched : List ContextMatch} {k : Nat} {documentId workspaceId userId : String}

/-! ## The ranges of a document -/

/-- The spans of a document as `_compute_ranges` sorts them. -/
def sortedSpans (k : Nat) (matched : List ContextMatch) (documentId : String) : List Span :=
  (documentSpans k matched documentId).mergeSort fun s t => toLex s ≤ toLex t

theorem ascending_sortedSpans (k : Nat) (matched : List ContextMatch) (documentId : String) :
    Ascending (sortedSpans k matched documentId) :=
  (pairwise_mergeSort_le toLex (documentSpans k matched documentId)).imp fun h => by
    rcases Prod.Lex.toLex_le_toLex.mp h with hlt | ⟨heq, -⟩
    · exact hlt.le
    · exact heq.le

theorem mem_documentSpans {span : Span} :
    span ∈ documentSpans k matched documentId ↔
      ∃ m ∈ matched, m.documentId = documentId ∧ ∃ idx, m.chunkIndex = some idx ∧
        span = matchSpan k idx := by
  simp only [documentSpans, List.mem_filterMap, List.mem_filter, decide_eq_true_eq,
    Option.map_eq_some_iff, and_assoc]
  simp only [eq_comm]

theorem mem_rangedDocuments :
    documentId ∈ rangedDocuments matched ↔ ∃ m ∈ matched, m.documentId = documentId ∧
      ∃ idx, m.chunkIndex = some idx := by
  simp only [rangedDocuments, List.mem_eraseDups, List.mem_map, List.mem_filter,
    Option.isSome_iff_exists, and_assoc]
  simp only [and_comm]

/-- The ranges of one document are its merged spans. -/
theorem filter_computeRanges (hk : k ≠ 0) (matched : List ContextMatch) (documentId : String) :
    ((computeRanges matched k).filter fun range => range.1 = documentId) =
      (mergeSpans (sortedSpans k matched documentId)).map fun span => (documentId, span) := by
  have hdocs : ∀ docs : List String, docs.Nodup →
      ((docs.flatMap fun d => (mergeSpans (sortedSpans k matched d)).map fun span =>
        ((d, span) : ChunkRange)).filter fun range => range.1 = documentId) =
      if documentId ∈ docs then
        (mergeSpans (sortedSpans k matched documentId)).map fun span => (documentId, span)
      else [] := by
    intro docs hnodup
    induction docs with
    | nil => rfl
    | cons d docs ih =>
      obtain ⟨hd, hnodup⟩ := List.nodup_cons.mp hnodup
      rw [List.flatMap_cons, List.filter_append, ih hnodup, List.filter_map]
      by_cases heq : d = documentId
      · subst heq
        simp [hd, Function.comp_def]
      · simp [heq, Ne.symm heq, Function.comp_def]
  unfold computeRanges
  rw [if_neg (by omega)]
  refine (hdocs _ (FirstOccurrence.nodup_eraseDups _)).trans ?_
  split
  · rfl
  · next hmem =>
    -- a document without spans
    have hnone : documentSpans k matched documentId = [] := by
      rw [List.eq_nil_iff_forall_not_mem]
      intro span hspan
      obtain ⟨m, hm, hdoc, idx, hidx, -⟩ := mem_documentSpans.mp hspan
      exact hmem (mem_rangedDocuments.mpr ⟨m, hm, hdoc, idx, hidx⟩)
    rw [sortedSpans, hnone, List.mergeSort_nil]
    rfl

theorem mem_computeRanges (hk : k ≠ 0) {range : ChunkRange} :
    range ∈ computeRanges matched k ↔ range.2 ∈ mergeSpans (sortedSpans k matched range.1) := by
  have hfilter := filter_computeRanges hk matched range.1
  have hmem : range ∈ computeRanges matched k ↔
      range ∈ (computeRanges matched k).filter fun r => r.1 = range.1 := by
    simp
  rw [hmem, hfilter, List.mem_map]
  constructor
  · rintro ⟨span, hspan, heq⟩
    rwa [← heq]
  · exact fun hspan => ⟨range.2, hspan, rfl⟩

/-- The range that a match asks for by itself; a window of size `0` asks for none. -/
def matchRanges (k : Nat) (m : ContextMatch) : List ChunkRange :=
  match m.chunkIndex with
  | none => []
  | some idx => if k = 0 then [] else [(m.documentId, matchSpan k idx)]

theorem mem_matchRanges (hk : k ≠ 0) {m : ContextMatch} {range : ChunkRange} :
    range ∈ matchRanges k m ↔
      range.1 = m.documentId ∧ ∃ idx, m.chunkIndex = some idx ∧ range.2 = matchSpan k idx := by
  unfold matchRanges
  cases m.chunkIndex with
  | none => simp
  | some idx => simp [hk, Prod.ext_iff]

/-- The ranges of a document cover what its matches ask for. -/
theorem covers_computeRanges (matched : List ContextMatch) (k : Nat) (documentId : String)
    (x : ℤ) :
    (∃ range ∈ computeRanges matched k, range.1 = documentId ∧ Covers range.2 x) ↔
      ∃ m ∈ matched, ∃ range ∈ matchRanges k m, range.1 = documentId ∧ Covers range.2 x := by
  by_cases hk : k = 0
  · subst hk
    have hnone : ∀ m, matchRanges 0 m = [] := fun m => by
      unfold matchRanges
      split <;> rfl
    simp [computeRanges, hnone]
  · calc (∃ range ∈ computeRanges matched k, range.1 = documentId ∧ Covers range.2 x)
        ↔ ∃ span ∈ mergeSpans (sortedSpans k matched documentId), Covers span x := by
          simp only [mem_computeRanges hk, Prod.exists]
          constructor
          · rintro ⟨d, lo, hi, hmem, rfl, hcovers⟩
            exact ⟨lo, hi, hmem, hcovers⟩
          · rintro ⟨lo, hi, hmem, hcovers⟩
            exact ⟨documentId, lo, hi, hmem, rfl, hcovers⟩
      _ ↔ ∃ span ∈ documentSpans k matched documentId, Covers span x := by
          rw [covers_mergeSpans (ascending_sortedSpans k matched documentId)]
          simp only [sortedSpans, List.mem_mergeSort]
      _ ↔ ∃ m ∈ matched, ∃ range ∈ matchRanges k m,
          range.1 = documentId ∧ Covers range.2 x := by
          simp only [mem_documentSpans, mem_matchRanges hk]
          constructor
          · rintro ⟨span, ⟨m, hm, hdoc, idx, hidx, rfl⟩, hcovers⟩
            exact ⟨m, hm, (documentId, matchSpan k idx), ⟨hdoc.symm, idx, hidx, rfl⟩, rfl, hcovers⟩
          · rintro ⟨m, hm, range, ⟨hdoc, idx, hidx, hspan⟩, rfl, hcovers⟩
            exact ⟨range.2, ⟨m, hm, hdoc.symm, idx, hidx, hspan⟩, hcovers⟩

/-- The ranges of a document are in order, with gaps between them. -/
theorem separated_computeRanges :
    Separated (((computeRanges matched k).filter fun range => range.1 = documentId).map
      Prod.snd) := by
  by_cases hk : k = 0
  · subst hk
    exact List.Pairwise.nil
  · rw [filter_computeRanges hk, List.map_map]
    convert separated_mergeSpans (ascending_sortedSpans k matched documentId) using 1
    exact List.map_id' _

/-! ## The rows -/

/-- The rows of the user in the workspace, in the order of the query. -/
def ownedRows (tables : ContextTables) (workspaceId userId : String) : List ContextRow :=
  (tables.chunks.rows.filter (tables.owns workspaceId userId)).mergeSort
    fun a b => rowKey a ≤ rowKey b

/-- The query filters the user's rows by its ranges. -/
theorem getContextChunks_eq (tables : ContextTables) {ranges : List ChunkRange} :
    getContextChunks tables workspaceId userId ranges =
      ((ownedRows tables workspaceId userId).filter fun row =>
        ranges.any fun range => range.admits row).map ContextRow.fetched := by
  have hkey : ∀ a ∈ tables.chunks.rows.filter (tables.owns workspaceId userId),
      ∀ b ∈ tables.chunks.rows.filter (tables.owns workspaceId userId),
      rowKey a = rowKey b → a = b := fun a ha b hb heq =>
    tables.chunks.eq_of_key_eq (List.mem_of_mem_filter ha) (List.mem_of_mem_filter hb) heq
  unfold getContextChunks
  split
  · next hnone => simp [hnone]
  · rw [ownedRows, ← mergeSort_filter hkey, List.filter_filter]
    simp only [Bool.and_comm]

/-- The rows of one document come in the order of their indices. -/
theorem pairwise_chunkIndex (tables : ContextTables) (p : ContextRow → Bool) :
    ((((ownedRows tables workspaceId userId).filter p).map ContextRow.fetched).filter fun r =>
      r.documentId = documentId).Pairwise fun a b => a.chunkIndex ≤ b.chunkIndex := by
  rw [List.filter_map, List.pairwise_map, List.filter_filter]
  have hsorted := (pairwise_mergeSort_le rowKey
    (tables.chunks.rows.filter (tables.owns workspaceId userId))).filter fun row =>
      ((fun r : FetchedChunk => decide (r.documentId = documentId)) ∘ ContextRow.fetched) row && p row
  refine hsorted.imp_of_mem fun ha hb hle => ?_
  have hdoc : ∀ {row : ContextRow}, row ∈ (ownedRows tables workspaceId userId).filter (fun row =>
      ((fun r : FetchedChunk => decide (r.documentId = documentId)) ∘ ContextRow.fetched) row &&
        p row) → row.documentId = documentId := fun h => by
    have := (List.mem_filter.mp h).2
    simp only [Bool.and_eq_true] at this
    exact of_decide_eq_true this.1
  rcases Prod.Lex.toLex_le_toLex.mp hle with hlt | ⟨-, hindex⟩
  · rw [hdoc ha, hdoc hb] at hlt
    exact absurd hlt (lt_irrefl _)
  · exact hindex

/-! ## The windows -/

/-- The user's chunks of a document whose index is in a window, in the order of their
    indices. -/
def neighbours (tables : ContextTables) (workspaceId userId documentId : String)
    (inWindow : ℤ → Bool) : List ContextChunk :=
  ((ownedRows tables workspaceId userId).filter fun row =>
    row.documentId = documentId && inWindow row.chunkIndex).map fun row => row.fetched.context

/-- A match with the windows that its own fetch gives it. -/
def naiveWindow (tables : ContextTables) (workspaceId userId : String) (k : Nat)
    (m : ContextMatch) : ContextMatch :=
  match m.chunkIndex with
  | none => if k = 0 then { m with contextBefore := some [], contextAfter := some [] } else m
  | some idx =>
    { m with
      contextBefore := some (neighbours tables workspaceId userId m.documentId fun i =>
        idx - k ≤ i ∧ i < idx)
      contextAfter := some (neighbours tables workspaceId userId m.documentId fun i =>
        idx < i ∧ i ≤ idx + k) }

/-- A window within the ranges selects from the fetched rows what it selects from all rows. -/
theorem window_fetched (tables : ContextTables) (workspaceId userId : String)
    {m : ContextMatch} {idx : ℤ} (hm : m ∈ matched) (hidx : m.chunkIndex = some idx) (hk : k ≠ 0)
    (inWindow : ℤ → Bool)
    (hwindow : ∀ i : Nat, inWindow i = true → Covers (matchSpan k idx) i) :
    (((((getContextChunks tables workspaceId userId (computeRanges matched k)).filter fun r =>
        r.documentId = m.documentId).mergeSort fun a b => a.chunkIndex ≤ b.chunkIndex).filter
      fun r => inWindow r.chunkIndex).map FetchedChunk.context) =
      neighbours tables workspaceId userId m.documentId inWindow := by
  rw [getContextChunks_eq, List.mergeSort_of_pairwise, neighbours, List.filter_filter,
    List.filter_map, List.filter_filter, List.map_map]
  · congr 1
    apply List.filter_congr
    intro row _
    -- a row of the window is in one of the ranges
    have hadmits : row.documentId = m.documentId → inWindow row.chunkIndex = true →
        ∃ range ∈ computeRanges matched k, range.admits row = true := by
      intro hdoc hin
      obtain ⟨range, hmem, hrange, hcovers⟩ :=
        (covers_computeRanges matched k m.documentId row.chunkIndex).mpr
          ⟨m, hm, (m.documentId, matchSpan k idx),
            (mem_matchRanges hk).mpr ⟨rfl, idx, hidx, rfl⟩, rfl, hwindow _ hin⟩
      refine ⟨range, hmem, ?_⟩
      rw [ChunkRange.admits, Bool.and_eq_true, decide_eq_true_iff, decide_eq_true_iff]
      exact ⟨hdoc.trans hrange.symm, hcovers⟩
    by_cases hdoc : row.documentId = m.documentId
    · by_cases hin : inWindow row.chunkIndex = true
      · have := hadmits hdoc hin
        simp [ContextRow.fetched, hdoc, hin, this]
      · simp [ContextRow.fetched, hin]
    · simp [ContextRow.fetched, hdoc]
  · exact (pairwise_chunkIndex tables _).imp fun h => decide_eq_true h

/-- Without ranges no match has an index. -/
theorem chunkIndex_eq_none_of_computeRanges (hk : k ≠ 0) (hnone : computeRanges matched k = [])
    {m : ContextMatch} (hm : m ∈ matched) : m.chunkIndex = none := by
  cases hidx : m.chunkIndex with
  | none => rfl
  | some idx =>
    have hfilter := filter_computeRanges hk matched m.documentId
    rw [hnone, List.filter_nil, eq_comm, List.map_eq_nil_iff, mergeSpans_eq_nil_iff] at hfilter
    have hspan : matchSpan k idx ∈ sortedSpans k matched m.documentId :=
      List.mem_mergeSort.mpr (mem_documentSpans.mpr ⟨m, hm, rfl, idx, hidx, rfl⟩)
    rw [hfilter] at hspan
    cases hspan

theorem naiveWindow_zero (tables : ContextTables) (m : ContextMatch) :
    naiveWindow tables workspaceId userId 0 m =
      { m with contextBefore := some [], contextAfter := some [] } := by
  unfold naiveWindow
  cases m.chunkIndex with
  | none => rfl
  | some idx =>
    have hbefore : (neighbours tables workspaceId userId m.documentId fun i =>
        idx - (0 : Nat) ≤ i ∧ i < idx) = [] := by
      rw [neighbours, List.map_eq_nil_iff, List.filter_eq_nil_iff]
      intro row _
      simp only [Bool.and_eq_true, decide_eq_true_eq]
      omega
    have hafter : (neighbours tables workspaceId userId m.documentId fun i =>
        idx < i ∧ i ≤ idx + (0 : Nat)) = [] := by
      rw [neighbours, List.map_eq_nil_iff, List.filter_eq_nil_iff]
      intro row _
      simp only [Bool.and_eq_true, decide_eq_true_eq]
      omega
    simp only [hbefore, hafter]

/-- The expansion by merged ranges gives each match its own windows. -/
theorem expand_some (tables : ContextTables) (matched : List ContextMatch)
    (workspaceId userId : String) (k : Nat) :
    expand (some tables) matched workspaceId userId k =
      matched.map (naiveWindow tables workspaceId userId k) := by
  unfold expand
  split
  · next hempty => rw [hempty, List.map_nil]
  · by_cases hk : k = 0
    · subst hk
      exact List.map_congr_left fun m _ => (naiveWindow_zero tables m).symm
    · simp only [if_neg hk]
      split
      · next hnone =>
        refine (List.map_id matched).symm.trans (List.map_congr_left fun m hm => ?_)
        rw [naiveWindow, chunkIndex_eq_none_of_computeRanges hk hnone hm]
        simp only [if_neg hk, id_eq]
      · refine List.map_congr_left fun m hm => ?_
        unfold naiveWindow
        cases hidx : m.chunkIndex with
        | none => simp only [if_neg hk]
        | some idx =>
          have hbefore := window_fetched tables workspaceId userId hm hidx hk
            (fun i => idx - k ≤ i ∧ i < idx) fun i hi => by
              have hi := of_decide_eq_true hi
              exact ⟨max_le (by omega) hi.1, by simp only [matchSpan]; omega⟩
          have hafter := window_fetched tables workspaceId userId hm hidx hk
            (fun i => idx < i ∧ i ≤ idx + k) fun i hi => by
              have hi := of_decide_eq_true hi
              exact ⟨max_le (by omega) (by omega), hi.2⟩
          simp only [← hbefore, ← hafter]

/-- A fetch for each match gives the same windows. -/
theorem expand_separately (tables : Option ContextTables) (matched : List ContextMatch)
    (workspaceId userId : String) (k : Nat) :
    expand tables matched workspaceId userId k =
      matched.flatMap fun m => expand tables [m] workspaceId userId k := by
  cases tables with
  | some tables =>
    simp only [expand_some, List.map_cons, List.map_nil]
    exact List.map_eq_flatMap
  | none =>
    have hnone : ∀ l : List ContextMatch, expand none l workspaceId userId k =
        l.map fun m => if k = 0 then { m with contextBefore := some [], contextAfter := some [] }
          else m := by
      intro l
      unfold expand
      by_cases hk : k = 0
      · cases l <;> simp [hk]
      · cases l <;> simp [hk]
    simp only [hnone, List.map_cons, List.map_nil]
    exact List.map_eq_flatMap

/-- The windows by merged ranges are the naive ones, and the ranges of a document are what its
    matches ask for. -/
theorem expand_eq_naive (tables : ContextTables) (matched : List ContextMatch)
    (workspaceId userId : String) (k : Nat) :
    expand (some tables) matched workspaceId userId k =
      matched.map (naiveWindow tables workspaceId userId k) ∧
    (∀ fetched : Option ContextTables, expand fetched matched workspaceId userId k =
      matched.flatMap fun m => expand fetched [m] workspaceId userId k) ∧
    ∀ documentId,
      Separated (((computeRanges matched k).filter fun range => range.1 = documentId).map
        Prod.snd) ∧
      ∀ x, (∃ range ∈ computeRanges matched k, range.1 = documentId ∧ Covers range.2 x) ↔
        ∃ m ∈ matched, ∃ range ∈ matchRanges k m, range.1 = documentId ∧ Covers range.2 x :=
  ⟨expand_some tables matched workspaceId userId k,
    fun fetched => expand_separately fetched matched workspaceId userId k,
    fun documentId => ⟨separated_computeRanges, covers_computeRanges matched k documentId⟩⟩

end Inherent
