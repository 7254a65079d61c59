import Inherent.Native.DocumentContext

/-!
# Reading a document page by page

The pages that a caller gets by following `next_offset` put the text of the document together,
whatever bounds the caller asks for, and list every chunk where its characters are.
-/

namespace Inherent

/-- Where the chunk with the number `i` starts in the joined text. -/
def chunkStart (chunks : List PublicChunk) (i : Nat) : Nat :=
  ((chunks.take i).map fun chunk => chunk.content.length + 2).sum

/-- The chunk with the number `i` has a character in the range from `a` to `b`. -/
def HasCharIn (chunks : List PublicChunk) (a b : Nat) (chunk : PublicChunk) (i : Nat) : Prop :=
  ∃ p, a ≤ p ∧ p < b ∧ chunkStart chunks i ≤ p ∧ p < chunkStart chunks i + chunk.content.length

instance (chunks : List PublicChunk) (a b : Nat) (chunk : PublicChunk) (i : Nat) :
    Decidable (HasCharIn chunks a b chunk i) :=
  decidable_of_iff (max a (chunkStart chunks i) <
      min b (chunkStart chunks i + chunk.content.length)) <| by
    constructor
    · intro h
      exact ⟨max a (chunkStart chunks i), by omega, by omega, by omega, by omega⟩
    · rintro ⟨p, h⟩
      omega

namespace ContextWindow

/-- The marker that a page has when it is truncated. -/
def marker (w : ContextWindow) : List Char :=
  match w.nextOffset with
  | none => []
  | some next => truncationMarker w.offset next w.totalChars

/-- The text of a page without the marker. -/
def text (w : ContextWindow) : List Char := w.fullText.take (w.fullText.length - w.marker.length)

/-- Where the text of a page ends in the joined text. -/
def stop (w : ContextWindow) : Nat := w.offset + w.text.length

/-- What a page with the bound `maxChars` is. -/
structure IsPage (chunks : List PublicChunk) (maxChars : Nat) (w : ContextWindow) : Prop where
  marked : w.fullText = w.text ++ w.marker
  bounded : w.text.length ≤ maxChars
  sliced : w.text = PyStr.slice (joinedContent chunks) w.offset w.stop
  listed : w.chunks.filter (fun chunk => chunk.content ≠ []) =
    (chunks.zipIdx.filter fun item => HasCharIn chunks w.offset w.stop item.1 item.2).map Prod.fst

end ContextWindow

/-- The pages put the document together. -/
structure Reassembles (chunks : List PublicChunk) (maxChars : Nat → Nat)
    (pages : List ContextWindow) : Prop where
  text : (pages.map ContextWindow.text).flatten = joinedContent chunks
  page : ∀ n w, pages[n]? = some w → ContextWindow.IsPage chunks (maxChars n) w
  covered : ∀ chunk ∈ chunks, chunk.content ≠ [] → ∃ w ∈ pages, chunk ∈ w.chunks

/-! ## The joined text -/

theorem chunkStart_succ (chunk : PublicChunk) (chunks : List PublicChunk) (i : Nat) :
    chunkStart (chunk :: chunks) (i + 1) = chunk.content.length + 2 + chunkStart chunks i := by
  simp [chunkStart]

theorem joinedContent_cons {chunks : List PublicChunk} (hne : chunks ≠ []) (chunk : PublicChunk) :
    joinedContent (chunk :: chunks) = chunk.content ++ ['\n', '\n'] ++ joinedContent chunks := by
  have hmap : chunks.map PublicChunk.content ≠ [] := by simpa using hne
  rw [joinedContent, List.map_cons, List.intercalate_cons_of_ne_nil hmap, joinedContent]

/-- A chunk stands in the joined text where it starts. -/
theorem exists_append_joinedContent {chunks : List PublicChunk} {i : Nat} {chunk : PublicChunk}
    (h : chunks[i]? = some chunk) :
    ∃ before after, joinedContent chunks = before ++ chunk.content ++ after ∧
      before.length = chunkStart chunks i := by
  induction chunks generalizing i with
  | nil => cases h
  | cons first rest ih =>
    cases i with
    | zero =>
      obtain rfl : first = chunk := Option.some.inj h
      by_cases hrest : rest = []
      · subst hrest
        exact ⟨[], [], by simp [joinedContent], rfl⟩
      · exact ⟨[], ['\n', '\n'] ++ joinedContent rest, by simp [joinedContent_cons hrest], rfl⟩
    | succ i =>
      rw [List.getElem?_cons_succ] at h
      have hrest : rest ≠ [] := List.ne_nil_of_mem (List.mem_of_getElem? h)
      obtain ⟨before, after, hjoined, hlen⟩ := ih h
      refine ⟨first.content ++ ['\n', '\n'] ++ before, after, ?_, ?_⟩
      · rw [joinedContent_cons hrest, hjoined]
        simp only [List.append_assoc]
      · rw [chunkStart_succ, ← hlen]
        simp only [List.length_append, List.length_cons, List.length_nil]

theorem chunkStart_add_length_le {chunks : List PublicChunk} {i : Nat} {chunk : PublicChunk}
    (h : chunks[i]? = some chunk) :
    chunkStart chunks i + chunk.content.length ≤ (joinedContent chunks).length := by
  obtain ⟨before, after, hjoined, hlen⟩ := exists_append_joinedContent h
  rw [hjoined, ← hlen, List.length_append, List.length_append]
  omega

/-! ## One page -/

/-- The loop keeps the chunks whose span meets the window. -/
theorem windowedChunks_eq (offset windowEnd pos : Nat) (chunks : List PublicChunk) :
    windowedChunks offset windowEnd pos chunks =
      (chunks.zipIdx.filter fun item =>
        offset < pos + chunkStart chunks item.2 + item.1.content.length ∧
          pos + chunkStart chunks item.2 < windowEnd).map Prod.fst := by
  induction chunks generalizing pos with
  | nil => rfl
  | cons first rest ih =>
    have hrest : ((rest.zipIdx 1).filter fun item =>
          offset < pos + chunkStart (first :: rest) item.2 + item.1.content.length ∧
            pos + chunkStart (first :: rest) item.2 < windowEnd).map Prod.fst =
        windowedChunks offset windowEnd (pos + first.content.length + 2) rest := by
      rw [ih, List.zipIdx_succ, List.filter_map, List.map_map]
      simp only [Function.comp_def, chunkStart_succ]
      congr 2
      funext item
      congr 1
      simp only [eq_iff_iff]
      omega
    have hstart : chunkStart (first :: rest) 0 = 0 := rfl
    rw [List.zipIdx_cons, List.filter_cons, windowedChunks]
    simp only [hstart, Nat.add_zero, Nat.zero_add, decide_eq_true_eq, gt_iff_lt]
    split
    · rw [List.map_cons, hrest]
    · exact hrest.symm

/-- The chunks with a character in a window of the text are the nonempty ones whose span meets
    it. -/
theorem hasCharIn_iff {chunks : List PublicChunk} {offset windowEnd : Nat}
    (hstop : windowEnd = offset → offset = (joinedContent chunks).length)
    (hle : offset ≤ windowEnd) {chunk : PublicChunk} {i : Nat} (h : chunks[i]? = some chunk) :
    HasCharIn chunks offset windowEnd chunk i ↔ chunk.content ≠ [] ∧
      (offset < chunkStart chunks i + chunk.content.length ∧ chunkStart chunks i < windowEnd) := by
  have hend := chunkStart_add_length_le h
  have hne : chunk.content ≠ [] ↔ 0 < chunk.content.length := List.length_pos_iff.symm
  rw [hne]
  constructor
  · rintro ⟨p, h₁, h₂, h₃, h₄⟩
    omega
  · rintro ⟨hpos, h₁, h₂⟩
    refine ⟨max offset (chunkStart chunks i), by omega, ?_, by omega, by omega⟩
    -- an empty window stands at the end of the text
    by_contra hge
    have hempty : windowEnd = offset := by omega
    have hoffset := hstop hempty
    omega

/-- The offset that a page uses. -/
def windowStart (chunks : List PublicChunk) (offset : Int) : Nat :=
  (max 0 (min offset (joinedContent chunks).length)).toNat

/-- Where a page ends. -/
def windowStop (chunks : List PublicChunk) (offset : Int) (maxChars : Nat) : Nat :=
  min (windowStart chunks offset + maxChars) (joinedContent chunks).length

section

variable {chunks : List PublicChunk} {offset : Int} {maxChars : Nat}

theorem windowStart_le : windowStart chunks offset ≤ (joinedContent chunks).length := by
  unfold windowStart
  omega

theorem windowStart_le_windowStop :
    windowStart chunks offset ≤ windowStop chunks offset maxChars := by
  have hle : windowStart chunks offset ≤ (joinedContent chunks).length := windowStart_le
  unfold windowStop
  omega

theorem nextOffset_windowed : (windowedDocumentContext chunks offset maxChars).nextOffset =
    if windowStop chunks offset maxChars < (joinedContent chunks).length then
      some (windowStop chunks offset maxChars) else none := by
  simp [windowedDocumentContext, windowStop, windowStart]

/-- The full text of a page is its slice of the text and its marker. -/
theorem fullText_windowed : (windowedDocumentContext chunks offset maxChars).fullText =
    PyStr.slice (joinedContent chunks) (windowStart chunks offset)
      (windowStop chunks offset maxChars) ++
      (windowedDocumentContext chunks offset maxChars).marker := by
  have hfull : (windowedDocumentContext chunks offset maxChars).fullText =
      if windowStop chunks offset maxChars < (joinedContent chunks).length then
        PyStr.slice (joinedContent chunks) (windowStart chunks offset)
          (windowStop chunks offset maxChars) ++
          truncationMarker (windowStart chunks offset) (windowStop chunks offset maxChars)
            (joinedContent chunks).length
      else PyStr.slice (joinedContent chunks) (windowStart chunks offset)
          (windowStop chunks offset maxChars) := by
    simp [windowedDocumentContext, windowStop, windowStart]
  unfold ContextWindow.marker
  rw [hfull, nextOffset_windowed]
  by_cases htruncated : windowStop chunks offset maxChars < (joinedContent chunks).length
  · rw [if_pos htruncated, if_pos htruncated]
    rfl
  · rw [if_neg htruncated, if_neg htruncated, List.append_nil]

/-- The text of a page is its slice of the joined text. -/
theorem text_windowed : (windowedDocumentContext chunks offset maxChars).text =
    PyStr.slice (joinedContent chunks) (windowStart chunks offset)
      (windowStop chunks offset maxChars) := by
  rw [ContextWindow.text, fullText_windowed, List.length_append, Nat.add_sub_cancel,
    List.take_left]

theorem length_text_windowed : (windowedDocumentContext chunks offset maxChars).text.length =
    windowStop chunks offset maxChars - windowStart chunks offset := by
  have hle : windowStop chunks offset maxChars ≤ (joinedContent chunks).length :=
    Nat.min_le_right _ _
  rw [text_windowed, PyStr.length_slice hle]

theorem stop_windowed : (windowedDocumentContext chunks offset maxChars).stop =
    windowStop chunks offset maxChars := by
  have hle : windowStart chunks offset ≤ windowStop chunks offset maxChars :=
    windowStart_le_windowStop
  have hoffset : (windowedDocumentContext chunks offset maxChars).offset =
      windowStart chunks offset := rfl
  rw [ContextWindow.stop, length_text_windowed, hoffset]
  omega

/-- Every page, of any offset, is a page of the document. -/
theorem isPage_windowed (hmax : 1 ≤ maxChars) :
    ContextWindow.IsPage chunks maxChars (windowedDocumentContext chunks offset maxChars) where
  marked := by rw [text_windowed, ← fullText_windowed]
  bounded := by
    rw [length_text_windowed]
    unfold windowStop
    omega
  sliced := by
    rw [text_windowed, stop_windowed]
    rfl
  listed := by
    have hchunks : (windowedDocumentContext chunks offset maxChars).chunks =
        windowedChunks (windowStart chunks offset) (windowStop chunks offset maxChars) 0 chunks :=
      rfl
    have hempty : windowStop chunks offset maxChars = windowStart chunks offset →
        windowStart chunks offset = (joinedContent chunks).length := by
      have hle : windowStart chunks offset ≤ (joinedContent chunks).length := windowStart_le
      unfold windowStop
      omega
    rw [stop_windowed, hchunks, windowedChunks_eq, List.filter_map, List.filter_filter]
    congr 1
    apply List.filter_congr
    intro item hitem
    have hget : chunks[item.2]? = some item.1 := by
      exact List.mem_zipIdx_iff_getElem?.mp hitem
    have hiff := hasCharIn_iff hempty windowStart_le_windowStop hget
    have hoffset : (windowedDocumentContext chunks offset maxChars).offset =
        windowStart chunks offset := rfl
    rw [Bool.eq_iff_iff, hoffset]
    simp only [Function.comp_apply, Nat.zero_add, Bool.and_eq_true, decide_eq_true_eq, hiff]

/-- Behind the end of the text there is nothing. -/
theorem windowed_pastEnd (hoffset : (joinedContent chunks).length ≤ offset) :
    (windowedDocumentContext chunks offset maxChars).fullText = [] ∧
      (windowedDocumentContext chunks offset maxChars).chunks = [] ∧
      (windowedDocumentContext chunks offset maxChars).truncated = false ∧
      (windowedDocumentContext chunks offset maxChars).nextOffset = none := by
  have hstart : windowStart chunks offset = (joinedContent chunks).length := by
    unfold windowStart
    omega
  have hstop : windowStop chunks offset maxChars = (joinedContent chunks).length := by
    unfold windowStop
    omega
  have hnext : (windowedDocumentContext chunks offset maxChars).nextOffset = none := by
    rw [nextOffset_windowed, hstop, if_neg (Nat.lt_irrefl _)]
  refine ⟨?_, ?_, ?_, hnext⟩
  · rw [fullText_windowed, ContextWindow.marker, hnext, hstart, hstop, List.append_nil,
      PyStr.slice, List.take_length, List.drop_length]
  · have hchunks : (windowedDocumentContext chunks offset maxChars).chunks =
        windowedChunks (windowStart chunks offset) (windowStop chunks offset maxChars) 0 chunks :=
      rfl
    rw [hchunks, windowedChunks_eq, List.map_eq_nil_iff, List.filter_eq_nil_iff]
    intro item hitem
    have hend := chunkStart_add_length_le (List.mem_zipIdx_iff_getElem?.mp hitem)
    simp only [decide_eq_true_eq, hstart]
    omega
  · have htruncated : (windowedDocumentContext chunks offset maxChars).truncated =
        decide (windowStop chunks offset maxChars < (joinedContent chunks).length) := rfl
    rw [htruncated, hstop, decide_eq_false (Nat.lt_irrefl _)]

end

/-! ## All pages -/

/-- The pages from an offset on put together the rest of the text. -/
theorem readPages_spec {chunks : List PublicChunk} {maxChars : Nat → Nat}
    (hmax : ∀ n, 1 ≤ maxChars n) {fuel n offset : Nat}
    (hoffset : offset ≤ (joinedContent chunks).length)
    (hfuel : (joinedContent chunks).length - offset < fuel) :
    ∃ pages, readPages chunks maxChars fuel n offset = some pages ∧
      (pages.map ContextWindow.text).flatten = (joinedContent chunks).drop offset ∧
      (∀ k w, pages[k]? = some w → ContextWindow.IsPage chunks (maxChars (n + k)) w) ∧
      ∀ p, offset ≤ p → p < (joinedContent chunks).length →
        ∃ w ∈ pages, w.offset ≤ p ∧ p < w.stop := by
  induction fuel generalizing n offset with
  | zero => cases hfuel
  | succ fuel ih =>
    have hstart : windowStart chunks offset = offset := by
      unfold windowStart
      omega
    generalize hwindow : windowedDocumentContext chunks offset (maxChars n) = window
    generalize hstop : windowStop chunks offset (maxChars n) = stop
    have hpage : ContextWindow.IsPage chunks (maxChars n) window :=
      hwindow ▸ isPage_windowed (hmax n)
    have htext : window.text = PyStr.slice (joinedContent chunks) offset stop := by
      rw [← hwindow, text_windowed, hstart, hstop]
    have hwstop : window.stop = stop := by rw [← hwindow, stop_windowed, hstop]
    have hwoffset : window.offset = offset := by
      rw [← hwindow]
      exact hstart
    have hnext : window.nextOffset =
        if stop < (joinedContent chunks).length then some stop else none := by
      rw [← hwindow, nextOffset_windowed, hstop]
    have hbounds : stop ≤ (joinedContent chunks).length ∧
        (offset < stop ∨ stop = (joinedContent chunks).length) := by
      have hone := hmax n
      rw [← hstop, windowStop, hstart]
      omega
    rw [readPages, hwindow, hnext]
    by_cases htruncated : stop < (joinedContent chunks).length
    · -- the rest is put together by the pages that follow
      rw [if_pos htruncated]
      obtain ⟨pages, hpages, hflatten, hrest, hcovered⟩ :=
        @ih (n + 1) stop hbounds.1 (by omega)
      refine ⟨window :: pages, ?_, ?_, ?_, ?_⟩
      · dsimp only
        rw [hpages, Option.map_some]
      · rw [List.map_cons, List.flatten_cons, hflatten, htext,
          PyStr.slice_append_drop (by omega) hbounds.1]
      · intro k w hw
        cases k with
        | zero =>
          obtain rfl : window = w := Option.some.inj hw
          exact hpage
        | succ k =>
          have hk : n + (k + 1) = n + 1 + k := by omega
          rw [hk]
          exact hrest k w hw
      · intro p hp hlt
        by_cases hin : p < stop
        · exact ⟨window, List.mem_cons_self, by omega, by omega⟩
        · obtain ⟨w, hw, hp⟩ := hcovered p (by omega) hlt
          exact ⟨w, List.mem_cons_of_mem _ hw, hp⟩
    · rw [if_neg htruncated]
      have hend : stop = (joinedContent chunks).length := by omega
      refine ⟨[window], rfl, ?_, ?_, ?_⟩
      · rw [List.map_singleton, List.flatten_singleton, htext, hend, PyStr.slice, List.take_length]
      · intro k w hw
        cases k with
        | zero =>
          obtain rfl : window = w := Option.some.inj hw
          exact hpage
        | succ k => cases hw
      · intro p hp hlt
        exact ⟨window, List.mem_singleton.mpr rfl, by omega, by omega⟩

/-- Following `next_offset` from the start ends, and the pages put the document together,
    whatever `max_chars` each page is asked with; behind the end of the text the page is
    empty. -/
theorem readPages_reassembles {chunks : List PublicChunk} {maxChars : Nat → Nat}
    (hmax : ∀ n, 1 ≤ maxChars n) :
    (∃ fuel pages, readPages chunks maxChars fuel 0 0 = some pages ∧
      Reassembles chunks maxChars pages) ∧
    ∀ (offset : Int) (n : Nat), (joinedContent chunks).length ≤ offset →
      (windowedDocumentContext chunks offset (maxChars n)).fullText = [] ∧
      (windowedDocumentContext chunks offset (maxChars n)).chunks = [] ∧
      (windowedDocumentContext chunks offset (maxChars n)).truncated = false ∧
      (windowedDocumentContext chunks offset (maxChars n)).nextOffset = none := by
  constructor
  · obtain ⟨pages, hpages, htext, hpage, hcovered⟩ :=
      readPages_spec hmax (Nat.zero_le (joinedContent chunks).length) (Nat.lt_succ_self _)
    refine ⟨_, pages, hpages, ?_, ?_, ?_⟩
    · rw [htext, List.drop_zero]
    · intro n w hw
      have hw' := hpage n w hw
      rwa [Nat.zero_add] at hw'
    · intro chunk hchunk hne
      obtain ⟨i, hi⟩ := List.mem_iff_getElem?.mp hchunk
      have hend := chunkStart_add_length_le hi
      have hpos : 0 < chunk.content.length := List.length_pos_iff.mpr hne
      obtain ⟨w, hw, hwp⟩ := hcovered (chunkStart chunks i) (Nat.zero_le _) (by omega)
      refine ⟨w, hw, ?_⟩
      -- its first character is on the page
      obtain ⟨n, hn⟩ := List.mem_iff_getElem?.mp hw
      have hin : HasCharIn chunks w.offset w.stop chunk i :=
        ⟨chunkStart chunks i, hwp.1, hwp.2, Nat.le_refl _, by omega⟩
      have hlisted : chunk ∈ w.chunks.filter (fun chunk => chunk.content ≠ []) := by
        rw [(hpage n w hn).listed]
        refine List.mem_map.mpr ⟨(chunk, i), ?_, rfl⟩
        exact List.mem_filter.mpr ⟨List.mem_zipIdx_iff_getElem?.mpr hi, decide_eq_true hin⟩
      exact (List.mem_filter.mp hlisted).1
  · intro offset n hoffset
    exact windowed_pastEnd hoffset

/-- Pages of one, two and then three characters, over chunks of which one is empty. -/
theorem readPages_reassembles_growing :
    (∃ fuel pages, readPages [⟨"c0", ['a', 'b']⟩, ⟨"c1", []⟩, ⟨"c2", ['c']⟩] (· + 1) fuel 0 0 =
      some pages ∧ Reassembles [⟨"c0", ['a', 'b']⟩, ⟨"c1", []⟩, ⟨"c2", ['c']⟩] (· + 1) pages) ∧
    (windowedDocumentContext [⟨"c0", ['a', 'b']⟩, ⟨"c1", []⟩, ⟨"c2", ['c']⟩] 7 1).fullText = [] :=
  ⟨(readPages_reassembles fun _ => Nat.succ_le_succ (Nat.zero_le _)).1,
    ((readPages_reassembles fun n => Nat.succ_le_succ (Nat.zero_le n)).2 7 0 (by decide)).1⟩

/-- The tool asks for pages of at least one character, whatever its arguments. -/
theorem exists_handleGetContext (chunks : List PublicChunk) (maxChars offset : Option Int) :
    ∃ (n : Int) (m : Nat), 0 ≤ n ∧ minMaxChars ≤ m ∧ m ≤ maxMaxChars ∧
      handleGetContext chunks maxChars offset = windowedDocumentContext chunks n m := by
  cases maxChars with
  | none =>
    cases offset with
    | none => exact ⟨0, defaultMaxChars, by omega, by decide, by decide, rfl⟩
    | some k => exact ⟨max 0 k, defaultMaxChars, by omega, by decide, by decide, rfl⟩
  | some n =>
    have hmin : minMaxChars ≤ (min (maxMaxChars : Int) (max minMaxChars n)).toNat := by
      unfold minMaxChars maxMaxChars
      omega
    have hmax : (min (maxMaxChars : Int) (max minMaxChars n)).toNat ≤ maxMaxChars := by
      unfold minMaxChars maxMaxChars
      omega
    cases offset with
    | none => exact ⟨0, _, by omega, hmin, hmax, rfl⟩
    | some k => exact ⟨max 0 k, _, by omega, hmin, hmax, rfl⟩

end Inherent
