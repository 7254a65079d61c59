import Inherent.Native.ChunkText
import Inherent.Spec.TurnChunks

/-!
# Splitting by size

`_chunk_by_size` and `_split_turn_text` run the same loop over windows of at most
`max_size` characters.  The loop ends, no character that is more than whitespace is lost,
and the windows start one behind the other.  The two differ on a text that fits into one
window: a turn is then left as it is, where `_chunk_by_size` strips it and may cut the
overlap off its end once more.
-/

namespace Inherent

/-- What a split of `text` by size has to satisfy. -/
structure SplitsBySize (text : List Char) (maxSize : Nat) (chunks : List ChunkData) : Prop where
  index : ∀ (k : Nat) (c : ChunkData), chunks[k]? = some c → c.chunkIndex = k
  starts : chunks.Pairwise fun c d => c.startChar < d.startChar
  span : ∀ c ∈ chunks, c.startChar < c.endChar ∧ c.endChar ≤ text.length
  content : ∀ c ∈ chunks, c.content = PyStr.strip (PyStr.slice text c.startChar c.endChar)
  length : ∀ c ∈ chunks, c.content.length ≤ maxSize
  covers : ∀ (p : Nat) (ch : Char), text[p]? = some ch → PyStr.isSpace ch = false →
    ∃ c ∈ chunks, c.startChar ≤ p ∧ p < c.endChar

/-! ## The windows -/

/-- A window is at most `max_size` long. -/
theorem pieceEnd_le (text : List Char) (maxSize start : Nat) :
    pieceEnd text maxSize start ≤ start + maxSize := by
  unfold pieceEnd
  dsimp only
  split
  · split
    · rename_i lastSpace hfind
      have hbounds := PyStr.rfindSpace_bounds hfind
      split <;> omega
    · omega
  · omega

/-- The next window starts later than this one, and not behind its end. -/
theorem nextStart_bounds {start stop : Nat} (overlap : Nat) (h : start < stop) :
    start < (if start < stop - overlap then stop - overlap else stop) ∧
      (if start < stop - overlap then stop - overlap else stop) ≤ stop := by
  split <;> omega

/-- A piece is the stripped text of its window, which starts at `start` or later. -/
structure Piece.Window (piece : Piece) (text : List Char) (maxSize start : Nat) : Prop where
  start_le : start ≤ piece.2.1
  lt : piece.2.1 < piece.2.2
  stop_le : piece.2.2 ≤ text.length
  length : piece.2.2 ≤ piece.2.1 + maxSize
  content : piece.1.toList = PyStr.strip (PyStr.slice text piece.2.1 piece.2.2)

theorem Piece.Window.weaken {piece : Piece} {text : List Char} {maxSize start next : Nat}
    (h : piece.Window text maxSize next) (hle : start ≤ next) :
    piece.Window text maxSize start :=
  { h with start_le := Nat.le_trans hle h.start_le }

/-- The piece of the window at `start`. -/
theorem window_pieceEnd {text : List Char} {maxSize start : Nat} (hmax : 0 < maxSize)
    (hstart : start < text.length) :
    Piece.Window (String.ofList (PyStr.strip (PyStr.slice text start (pieceEnd text maxSize start))),
      start, pieceEnd text maxSize start) text maxSize start where
  start_le := Nat.le_refl start
  lt := pieceEnd_gt hmax hstart
  stop_le := (pieceEnd_bounds hstart).2
  length := pieceEnd_le text maxSize start
  content := String.toList_ofList

/-- The pieces of the loop come from windows that start one behind the other. -/
theorem splitLoop_windows (text : List Char) {maxSize : Nat} (overlap fuel start : Nat)
    (hmax : 0 < maxSize) :
    (∀ piece ∈ splitLoop text maxSize overlap fuel start, piece.Window text maxSize start) ∧
      (splitLoop text maxSize overlap fuel start).Pairwise fun p q => p.2.1 < q.2.1 := by
  induction fuel generalizing start with
  | zero => simp [splitLoop]
  | succ fuel ih =>
    unfold splitLoop
    split
    · rename_i hstart
      dsimp only
      have hnext := nextStart_bounds overlap (pieceEnd_gt hmax hstart)
      obtain ⟨hwin, hpair⟩ := ih (if start < pieceEnd text maxSize start - overlap then
        pieceEnd text maxSize start - overlap else pieceEnd text maxSize start)
      have hrest := fun p hp => (hwin p hp).weaken (Nat.le_of_lt hnext.1)
      split
      · exact ⟨hrest, hpair⟩
      · constructor
        · intro p hp
          cases hp with
          | head => exact window_pieceEnd hmax hstart
          | tail _ hp => exact hrest p hp
        · rw [List.pairwise_cons]
          exact ⟨fun p hp => Nat.lt_of_lt_of_le hnext.1 (hwin p hp).start_le, hpair⟩
    · simp

/-! ## The loop of `_chunk_by_size` -/

/-- The loop ends, and adds the pieces that the loop of `_split_turn_text` yields. -/
theorem chunkBySizeLoop_eq {text : List Char} (documentId : String) {maxSize : Nat}
    (overlap : Nat) {fuel start : Nat} {sink : ChunkSink} (hmax : 0 < maxSize)
    (hfuel : text.length - start ≤ fuel) (hsink : sink.Indexed) :
    ∃ out, chunkBySizeLoop text documentId maxSize overlap fuel start sink = some out ∧
      out.Indexed ∧ out.chunks.map ChunkData.piece =
        sink.chunks.map ChunkData.piece ++ splitLoop text maxSize overlap fuel start := by
  induction fuel generalizing start sink with
  | zero =>
    have hstart : ¬ start < text.length := by omega
    exact ⟨sink, by simp [chunkBySizeLoop, hstart], hsink, by simp [splitLoop]⟩
  | succ fuel ih =>
    unfold chunkBySizeLoop splitLoop
    split
    · rename_i hstart
      dsimp only
      have hgt := pieceEnd_gt hmax hstart
      have hnext := nextStart_bounds overlap hgt
      have hle : text.length - (if start < pieceEnd text maxSize start - overlap then
          pieceEnd text maxSize start - overlap else pieceEnd text maxSize start) ≤ fuel := by
        omega
      by_cases hpiece : PyStr.strip (PyStr.slice text start (pieceEnd text maxSize start)) = []
      · simp only [if_pos hpiece]
        exact ih hle hsink
      · simp only [if_neg hpiece]
        obtain ⟨out, hout, hindex, hpieces⟩ := ih hle (hsink.add documentId
          (PyStr.strip (PyStr.slice text start (pieceEnd text maxSize start))) start
          (pieceEnd text maxSize start) [])
        refine ⟨out, hout, hindex, ?_⟩
        rw [hpieces]
        simp [ChunkSink.add, ChunkData.piece]
    · exact ⟨sink, rfl, hsink, by simp⟩

/-- `_chunk_by_size` ends with the pieces of the loop, numbered from 0 on. -/
theorem chunkBySize_eq (text : List Char) (documentId : String) {maxSize : Nat} (overlap : Nat)
    (hmax : 0 < maxSize) :
    ∃ chunks, chunkBySize text documentId maxSize overlap = some chunks ∧
      (∀ (k : Nat) (c : ChunkData), chunks[k]? = some c → c.chunkIndex = k) ∧
      chunks.map ChunkData.piece = splitLoop text maxSize overlap text.length 0 := by
  obtain ⟨out, hout, hindex, hpieces⟩ := chunkBySizeLoop_eq documentId overlap hmax
    (Nat.sub_le text.length 0) ChunkSink.indexed_empty
  exact ⟨out.chunks, by rw [chunkBySize, hout, Option.map_some], hindex.index, by simpa using hpieces⟩

/-- Whatever has the pieces of the loop splits the text. -/
theorem splitsBySize_of_pieces {text : List Char} {maxSize overlap : Nat}
    {chunks : List ChunkData} (hmax : 0 < maxSize)
    (hindex : ∀ (k : Nat) (c : ChunkData), chunks[k]? = some c → c.chunkIndex = k)
    (hpieces : chunks.map ChunkData.piece = splitLoop text maxSize overlap text.length 0) :
    SplitsBySize text maxSize chunks := by
  obtain ⟨hwin, hpair⟩ := splitLoop_windows text overlap text.length 0 hmax
  rw [← hpieces] at hwin hpair
  have hwindow : ∀ c ∈ chunks, c.piece.Window text maxSize 0 := fun c hc =>
    hwin c.piece (List.mem_map_of_mem hc)
  have hcontent : ∀ c ∈ chunks,
      c.content = PyStr.strip (PyStr.slice text c.startChar c.endChar) := by
    intro c hc
    have := (hwindow c hc).content
    simpa [ChunkData.piece] using this
  refine ⟨hindex, ?_, ?_, hcontent, ?_, ?_⟩
  · simpa [List.pairwise_map, ChunkData.piece] using hpair
  · exact fun c hc => ⟨(hwindow c hc).lt, (hwindow c hc).stop_le⟩
  · intro c hc
    -- stripping makes the window shorter
    obtain ⟨a, b, -, hb, hstrip, -⟩ := PyStr.strip_eq_slice
      (PyStr.slice text c.startChar c.endChar)
    have hlen := (hwindow c hc).length
    have hslice : (PyStr.slice text c.startChar c.endChar).length = c.endChar - c.startChar :=
      PyStr.length_slice (hwindow c hc).stop_le
    simp only [ChunkData.piece] at hlen
    rw [hcontent c hc, hstrip, PyStr.length_slice hb]
    omega
  · intro p ch hp hch
    obtain ⟨piece, hmem, hspan⟩ : ∃ piece ∈ splitLoop text maxSize overlap text.length 0,
        piece.2.1 ≤ p ∧ p < piece.2.2 :=
      exists_mem_splitLoop hmax (Nat.sub_le text.length 0) hp hch (Nat.zero_le p)
    rw [← hpieces, List.mem_map] at hmem
    obtain ⟨c, hc, rfl⟩ := hmem
    exact ⟨c, hc, hspan⟩

/-! ## The two implementations -/

/-- A stripped text ends with more than whitespace. -/
theorem isSpace_getLast_of_strip {text : List Char} (hstrip : PyStr.strip text = text)
    (hne : text ≠ []) : PyStr.isSpace (text.getLast hne) = false := by
  have hrev : (PyStr.lstrip text).reverse.dropWhile PyStr.isSpace = text.reverse :=
    List.reverse_eq_iff.mp hstrip
  have hhead := List.head?_dropWhile_not PyStr.isSpace (PyStr.lstrip text).reverse
  rw [hrev, List.head?_reverse, List.getLast?_eq_some_getLast hne] at hhead
  exact hhead

/-- The end of a stripped text is not blank. -/
theorem strip_tail_ne_nil {text : List Char} {start : Nat} (hstrip : PyStr.strip text = text)
    (hstart : start < text.length) : PyStr.strip (PyStr.slice text start text.length) ≠ [] := by
  intro hnil
  have hne : text ≠ [] := List.ne_nil_of_length_pos (by omega)
  have hlast : text[text.length - 1]? = some (text.getLast hne) := by
    rw [← List.getLast?_eq_getElem?, List.getLast?_eq_some_getLast hne]
  have hspace := isSpace_of_strip_eq_nil (Nat.le_of_lt hstart) (Nat.le_refl _) hnil hlast
    (by omega) (by omega)
  rw [isSpace_getLast_of_strip hstrip hne] at hspace
  cases hspace

/-- The window at `start` of a text that ends within it. -/
theorem pieceEnd_of_le {text : List Char} {maxSize start : Nat}
    (h : text.length ≤ start + maxSize) : pieceEnd text maxSize start = text.length := by
  unfold pieceEnd
  simp [Nat.min_eq_right h]

/-- The loop on a text that fits into one window: the text, and the overlap at its end if
    this is a proper part of it. -/
theorem splitLoop_short {text : List Char} {maxSize overlap : Nat} (hne : text ≠ [])
    (hshort : text.length ≤ maxSize) :
    splitLoop text maxSize overlap text.length 0 =
      (if PyStr.strip text = [] then [] else [(String.ofList (PyStr.strip text), 0, text.length)]) ++
        if overlap = 0 ∨ text.length ≤ overlap then []
        else if PyStr.strip (PyStr.slice text (text.length - overlap) text.length) = [] then []
        else [(String.ofList
          (PyStr.strip (PyStr.slice text (text.length - overlap) text.length)),
          text.length - overlap, text.length)] := by
  have hpos : 0 < text.length := List.length_pos_iff.mpr hne
  have hwhole : PyStr.slice text 0 text.length = text := by simp [PyStr.slice]
  have hend : ∀ start, pieceEnd text maxSize start = text.length := fun start =>
    pieceEnd_of_le (by omega)
  -- a window at the end of the text is the last one
  have hdone : ∀ fuel, splitLoop text maxSize overlap fuel text.length = [] := by
    intro fuel
    cases fuel with
    | zero => rfl
    | succ fuel => simp [splitLoop]
  have hstep : ∀ fuel start, start < text.length →
      splitLoop text maxSize overlap (fuel + 1) start =
        (if PyStr.strip (PyStr.slice text start text.length) = [] then []
          else [(String.ofList (PyStr.strip (PyStr.slice text start text.length)), start,
            text.length)]) ++
          splitLoop text maxSize overlap fuel
            (if start < text.length - overlap then text.length - overlap else text.length) := by
    intro fuel start hstart
    rw [splitLoop, if_pos hstart, hend]
    dsimp only
    by_cases hblank : PyStr.strip (PyStr.slice text start text.length) = []
    · simp only [if_pos hblank, List.nil_append]
    · simp only [if_neg hblank, List.cons_append, List.nil_append]
  obtain ⟨n, hn⟩ := Nat.exists_eq_succ_of_ne_zero (Nat.ne_of_gt hpos)
  have hfirst := hstep n 0 hpos
  rw [← Nat.succ_eq_add_one, ← hn, hwhole] at hfirst
  rw [hfirst]
  by_cases hover : overlap = 0 ∨ text.length ≤ overlap
  · -- the window of the whole text is the only one
    have hnext : (if 0 < text.length - overlap then text.length - overlap else text.length) =
        text.length := by
      split <;> omega
    rw [if_pos hover, hnext, hdone]
  · have hlt : 0 < text.length - overlap := by omega
    obtain ⟨m, hm⟩ : ∃ m, n = m + 1 := ⟨n - 1, by omega⟩
    have hnext : ¬ text.length - overlap < text.length - overlap := Nat.lt_irrefl _
    rw [if_neg hover, if_pos hlt, hm, hstep m _ (by omega), if_neg hnext, hdone, List.append_nil]

/-- `_split_turn_text` yields the pieces of `_chunk_by_size` on a text that takes more than
    one window, and on one that does not where there is nothing to strip and no overlap to
    cut off. -/
def SplitsAgree (text : List Char) (maxSize overlap : Nat) : Prop :=
  text = [] ∨ maxSize < text.length ∨
    (PyStr.strip text = text ∧ (overlap = 0 ∨ text.length ≤ overlap))

/-- Where the loop yields a turn as it is. -/
theorem splitLoop_eq_whole_iff {text : String} {maxSize overlap : Nat} (hne : text.toList ≠ [])
    (hshort : text.toList.length ≤ maxSize) :
    [(text, 0, text.toList.length)] =
        splitLoop text.toList maxSize overlap text.toList.length 0 ↔
      PyStr.strip text.toList = text.toList ∧ (overlap = 0 ∨ text.toList.length ≤ overlap) := by
  rw [splitLoop_short hne hshort]
  constructor
  · intro h
    by_cases hblank : PyStr.strip text.toList = []
    · -- the overlap starts behind the start of the text
      rw [if_pos hblank, List.nil_append] at h
      split at h
      · cases h
      · split at h
        · cases h
        · simp only [List.cons.injEq, Prod.mk.injEq] at h
          omega
    · rw [if_neg hblank, List.cons_append, List.nil_append, List.cons.injEq] at h
      have hstrip : PyStr.strip text.toList = text.toList := by
        have hwhole := congrArg String.toList (Prod.mk.inj h.1).1
        exact (hwhole.trans String.toList_ofList).symm
      refine ⟨hstrip, ?_⟩
      by_contra hover
      have hlt : text.toList.length - overlap < text.toList.length := by omega
      have := h.2
      rw [if_neg hover, if_neg (strip_tail_ne_nil hstrip hlt)] at this
      cases this
  · rintro ⟨hstrip, hover⟩
    rw [hstrip, if_neg hne, if_pos hover, String.ofList_toList, List.append_nil]

/-- `_chunk_by_size` ends, splits every text without losing anything, and agrees with
    `_split_turn_text` just where that does not leave a text as it is that the loop would
    strip or cut twice. -/
theorem chunkBySize_spec (text : String) (documentId : String) (maxSize overlap : Nat)
    (hmax : 1 ≤ maxSize) :
    ∃ chunks, chunkBySize text.toList documentId maxSize overlap = some chunks ∧
      SplitsBySize text.toList maxSize chunks ∧
      (splitTurnText text maxSize overlap = chunks.map ChunkData.piece ↔
        SplitsAgree text.toList maxSize overlap) ∧
      (text.toList ≠ [] → text.toList.length ≤ maxSize →
        splitTurnText text maxSize overlap = [(text, 0, text.toList.length)]) := by
  obtain ⟨chunks, hchunks, hindex, hpieces⟩ :=
    chunkBySize_eq text.toList documentId overlap (Nat.lt_of_lt_of_le Nat.zero_lt_one hmax)
  refine ⟨chunks, hchunks, splitsBySize_of_pieces hmax hindex hpieces, ?_, ?_⟩
  · rw [hpieces, splitTurnText, SplitsAgree]
    by_cases hne : text.toList = []
    · simp [hne, splitLoop]
    · rw [if_neg hne]
      by_cases hshort : text.toList.length ≤ maxSize
      · rw [if_pos hshort, splitLoop_eq_whole_iff hne hshort]
        simp only [hne, false_or, Nat.not_lt.mpr hshort]
      · rw [if_neg hshort]
        simp only [Nat.lt_of_not_le hshort, true_or, or_true]
  · intro hne hshort
    rw [splitTurnText, if_neg hne, if_pos hshort]

/-- A text of two words, split into windows of four characters. -/
theorem chunkBySize_spec_words :
    1 ≤ 4 ∧ ∃ chunks, chunkBySize "ab cde".toList "doc" 4 0 = some chunks ∧
      SplitsBySize "ab cde".toList 4 chunks ∧
      (splitTurnText "ab cde" 4 0 = chunks.map ChunkData.piece ↔
        SplitsAgree "ab cde".toList 4 0) ∧
      ("ab cde".toList ≠ [] → "ab cde".toList.length ≤ 4 →
        splitTurnText "ab cde" 4 0 = [("ab cde", 0, "ab cde".toList.length)]) :=
  ⟨by decide, chunkBySize_spec "ab cde" "doc" 4 0 (by decide)⟩

/-- The two implementations differ on a blank before the text. -/
theorem splitTurnText_ne_chunkBySize :
    ¬ ∀ (text : String) (documentId : String) (maxSize overlap : Nat), 1 ≤ maxSize →
      ∃ chunks, chunkBySize text.toList documentId maxSize overlap = some chunks ∧
        SplitsBySize text.toList maxSize chunks ∧
        splitTurnText text maxSize overlap = chunks.map ChunkData.piece := by
  intro h
  obtain ⟨chunks, hchunks, -, hagree⟩ := h " a" "doc" 5 0 (by decide)
  have hsize : chunkBySize " a".toList "doc" 5 0 =
      some [{ documentId := "doc", content := ['a'], chunkIndex := 0, startChar := 0,
              endChar := 2 }] := by
    decide
  rw [hsize, Option.some.injEq] at hchunks
  rw [← hchunks] at hagree
  exact absurd hagree (by decide)

end Inherent
