import Inherent.Native.LineChunks
import Inherent.Spec.SentenceChunks

/-!
# The header of prose

Every chunk of `_chunk_by_sentences` has the sentences of its span.  `_chunk_prose` leaves
the spans as they are, and puts the bounded header block before the sentences of every chunk
that starts behind the header, if the block leaves room for anything else.
-/

namespace Inherent

open GreedyPacking (window)

/-! ## The sentences of a chunk -/

/-- The text is that of the sentences in the span of the chunk. -/
structure ChunkData.HasSentences (text : List Char) (c : ChunkData) (body : List Char) : Prop where
  span : Spaced (((sentenceUnits text).filter fun u => c.Holds u).map TextSpan.text)
    (PyStr.slice text c.startChar c.endChar)
  eq : body =
    PyStr.strip (PyStr.join [' '] (((sentenceUnits text).filter fun u => c.Holds u).map TextSpan.text))
  ne_nil : body ≠ []

/-- The chunk of a window of the sentences has these. -/
theorem hasSentences_groupChunk (text : List Char) (documentId : String) (k : Nat) {w : Nat × Nat}
    (hlt : w.1 < w.2) (hle : w.2 ≤ (sentenceUnits text).length) :
    (groupChunk [' '] documentId k (window (sentenceUnits text) w)).HasSentences text
      (groupContent [' '] (window (sentenceUnits text) w)) := by
  have horder := sentenceUnits_inOrder text
  have hne : ∀ u ∈ sentenceUnits text, PyStr.strip u.text ≠ [] := fun u hu =>
    strip_ne_nil_of_mem_sentenceUnits hu
  have hfilter : ((sentenceUnits text).filter fun u =>
      (groupChunk [' '] documentId k (window (sentenceUnits text) w)).Holds u) =
      window (sentenceUnits text) w :=
    filter_holds_groupChunk horder (horder.start_lt hne) hlt hle
  refine ⟨?_, ?_, ?_⟩
  · rw [hfilter]
    exact spaced_groupChunk horder hlt hle
  · rw [hfilter, groupContent]
  · have hhead := GreedyPacking.head?_window (sentenceUnits text) hlt
    rw [List.getElem?_eq_getElem (by omega)] at hhead
    exact PyStr.strip_join_ne_nil (List.mem_map_of_mem (List.mem_of_head? hhead))
      (hne _ (List.getElem_mem _))

/-- What is kept of the last group is a window of the sentences. -/
theorem exists_window_keptTail {units : List TextSpan} {maxSize overlap : Nat}
    (hne : keptTail maxSize overlap units ≠ []) :
    ∃ w : Nat × Nat, w.1 < w.2 ∧ w.2 ≤ units.length ∧
      keptTail maxSize overlap units = window units w := by
  obtain ⟨ws, a, hw⟩ := (sentencePacker maxSize overlap).run_windows units
  have hsuffix := (keeps_overlapTail overlap).suffix ((sentencePacker maxSize overlap).run units).current
  rw [hw.current] at hsuffix
  obtain ⟨b, -, hbn, hkept⟩ := GreedyPacking.suffix_window (Nat.le_refl _) hw.start_le hsuffix
  rw [← hw.current] at hkept
  refine ⟨(b, units.length), ?_, Nat.le_refl _, hkept⟩
  apply Nat.lt_of_le_of_ne hbn
  rintro rfl
  exact hne (hkept.trans (by simp [window]))

/-- Every chunk of `_chunk_by_sentences` has the sentences of its span. -/
theorem hasSentences_of_mem {text : List Char} {documentId : String} {maxSize overlap : Nat}
    {c : ChunkData} (hc : c ∈ chunkBySentences text documentId maxSize overlap) :
    c.HasSentences text c.content := by
  obtain ⟨ws, hgroups, hcover⟩ := (sentencePacker maxSize overlap).groups_cover (sentenceUnits text)
  -- the groups are windows
  have hwindow : ∀ g ∈ (sentencePacker maxSize overlap).groups (sentenceUnits text),
      ∃ w : Nat × Nat, w.1 < w.2 ∧ w.2 ≤ (sentenceUnits text).length ∧
        g = window (sentenceUnits text) w := by
    intro g hg
    rw [hgroups] at hg
    obtain ⟨w, hw, rfl⟩ := List.mem_map.mp hg
    exact ⟨w, (hcover.bounds w hw).1, (hcover.bounds w hw).2, rfl⟩
  have hchunk : ∀ {gs : List (List TextSpan)},
      c ∈ gs.mapIdx (groupChunk [' '] documentId) →
      (∀ g ∈ gs, ∃ w : Nat × Nat, w.1 < w.2 ∧ w.2 ≤ (sentenceUnits text).length ∧
        g = window (sentenceUnits text) w) → c.HasSentences text c.content := by
    intro gs hmem hgs
    obtain ⟨k, hk, rfl⟩ := List.mem_mapIdx.mp hmem
    obtain ⟨w, hlt, hle, hg⟩ := hgs _ (List.getElem_mem hk)
    rw [hg]
    exact hasSentences_groupChunk text documentId k hlt hle
  rcases chunkBySentences_eq text documentId maxSize overlap with ⟨-, heq⟩ | ⟨-, hkept, heq⟩
  · rw [heq] at hc
    exact hchunk hc hwindow
  · rw [heq] at hc
    apply hchunk hc
    intro g hg
    rcases List.mem_append.mp hg with hg | hg
    · exact hwindow g hg
    · rw [List.mem_singleton.mp hg]
      exact exists_window_keptTail hkept

/-! ## The header block -/

/-- The lines that the loop finds are header lines of the text. -/
theorem headerLoop_lines {raws matched : List (List Char)} {cursor : Nat} :
    ∀ line ∈ (headerLoop raws matched cursor).1, line ∈ matched ∨
      (isHeaderLine line = true ∧ ∃ raw ∈ raws, line = PyStr.rstripNewlines raw) := by
  induction raws generalizing matched cursor with
  | nil => exact fun line hline => .inl hline
  | cons raw raws ih =>
    intro line hline
    unfold headerLoop at hline
    dsimp only at hline
    split at hline
    · exact .inl hline
    · split at hline
      · exact .inl hline
      · rename_i hheader
        -- the line of this round
        have hlast : line ∈ matched ++ [PyStr.rstripNewlines raw] → line ∈ matched ∨
            (isHeaderLine line = true ∧ ∃ raw' ∈ raw :: raws, line = PyStr.rstripNewlines raw') := by
          intro hmem
          rcases List.mem_append.mp hmem with hmem | hmem
          · exact .inl hmem
          · rw [List.mem_singleton] at hmem
            rw [hmem]
            exact .inr ⟨by simpa using hheader, raw, List.mem_cons_self, rfl⟩
        split at hline
        · exact hlast hline
        · rcases ih line hline with hmem | ⟨hheader', raw', hraw', heq⟩
          · exact hlast hmem
          · exact .inr ⟨hheader', raw', List.mem_cons_of_mem _ hraw', heq⟩

theorem headerLoop_cursor_le (raws matched : List (List Char)) (cursor : Nat) :
    cursor ≤ (headerLoop raws matched cursor).2 := by
  induction raws generalizing matched cursor with
  | nil => exact Nat.le_refl _
  | cons raw raws ih =>
    unfold headerLoop
    dsimp only
    split
    · exact Nat.le_refl _
    · split
      · exact Nat.le_refl _
      · split
        · exact Nat.le_add_right _ _
        · exact Nat.le_trans (Nat.le_add_right _ _) (ih _ _)

/-- The cursor is behind the lines that are found. -/
theorem headerLoop_cursor_lt {raws matched : List (List Char)} {cursor : Nat}
    (hfound : (headerLoop raws matched cursor).1 ≠ matched) :
    cursor < (headerLoop raws matched cursor).2 := by
  cases raws with
  | nil => exact absurd rfl hfound
  | cons raw raws =>
    have hle := headerLoop_cursor_le raws (matched ++ [PyStr.rstripNewlines raw])
      (cursor + raw.length)
    unfold headerLoop at hfound ⊢
    dsimp only at hfound ⊢
    split at hfound
    · exact absurd rfl hfound
    · rename_i hstripped
      have hraw : 0 < raw.length := by
        apply List.length_pos_iff.mpr
        rintro rfl
        exact hstripped rfl
      split at hfound
      · exact absurd rfl hfound
      · rename_i hheader
        rw [if_neg hstripped, if_neg hheader]
        split
        · simp only
          omega
        · omega

/-- The bounded block is that of the bounded lines. -/
theorem boundHeaderBlock_join {lines : List (List Char)} (hne : lines ≠ [])
    (hlines : ∀ line ∈ lines, '\n' ∉ line) :
    boundHeaderBlock (PyStr.join ['\n'] lines) = PyStr.join ['\n'] (lines.map boundHeaderLine) := by
  have hsplit : (PyStr.join ['\n'] lines).splitOn '\n' = lines :=
    List.splitOn_intercalate _ hlines hne
  rw [boundHeaderBlock, hsplit]

/-- A header block is made of header lines. -/
theorem exists_headerLines {text : List Char} (h : (detectHeaderBlock text).1 ≠ []) :
    ∃ lines, minHeaderBlockLines ≤ lines.length ∧ (∀ line ∈ lines, isHeaderLine line = true) ∧
      (detectHeaderBlock text).1 = PyStr.join ['\n'] lines ∧
      boundHeaderBlock (detectHeaderBlock text).1 =
        PyStr.join ['\n'] (lines.map boundHeaderLine) := by
  unfold detectHeaderBlock at h ⊢
  dsimp only at h ⊢
  split at h
  · exact absurd rfl h
  · rename_i hmin
    rw [if_neg hmin]
    have hfound : ∀ line ∈
        (headerLoop (PyStr.splitlines (text.take maxHeaderBlockScanChars)) [] 0).1, _ :=
      headerLoop_lines
    generalize (headerLoop (PyStr.splitlines (text.take maxHeaderBlockScanChars)) [] 0) = found
      at hmin hfound
    have hne : found.1 ≠ [] := by
      intro hnil
      rw [hnil] at hmin
      exact hmin (by decide)
    refine ⟨found.1, Nat.le_of_not_lt hmin, ?_, rfl, boundHeaderBlock_join hne ?_⟩
    · intro line hline
      exact ((hfound line hline).resolve_left List.not_mem_nil).1
    · intro line hline
      obtain ⟨-, raw, hraw, rfl⟩ := (hfound line hline).resolve_left List.not_mem_nil
      exact PyStr.newline_notMem_rstripNewlines hraw

/-- The offset behind a header block is not 0. -/
theorem headerEnd_pos {text : List Char} (h : (detectHeaderBlock text).1 ≠ []) :
    0 < (detectHeaderBlock text).2 := by
  unfold detectHeaderBlock at h ⊢
  dsimp only at h ⊢
  split at h
  · exact absurd rfl h
  · rename_i hmin
    rw [if_neg hmin]
    apply headerLoop_cursor_lt
    intro hnil
    rw [hnil] at hmin
    exact hmin (by decide)

theorem isSpace_of_isAlpha {c : Char} (h : c.isAlpha = true) : PyStr.isSpace c = false := by
  simp only [Char.isAlpha, Char.isUpper, Char.isLower, Bool.or_eq_true, Bool.and_eq_true,
    decide_eq_true_eq, UInt32.le_iff_toNat_le, ge_iff_le] at h
  have hval : c.toNat = c.val.toNat := rfl
  have hA : 'A'.val.toNat = 65 := rfl
  have hZ : 'Z'.val.toNat = 90 := rfl
  have ha : 'a'.val.toNat = 97 := rfl
  have hz : 'z'.val.toNat = 122 := rfl
  simp only [PyStr.isSpace, Bool.or_eq_false_iff, Bool.and_eq_false_iff, decide_eq_false_iff_not,
    beq_eq_false_iff_ne, ne_eq]
  omega

/-- The bounded block starts with a letter. -/
theorem isSpace_head_boundHeaderBlock {text : List Char} (h : (detectHeaderBlock text).1 ≠ []) :
    ∃ c rest, boundHeaderBlock (detectHeaderBlock text).1 = c :: rest ∧ PyStr.isSpace c = false := by
  obtain ⟨lines, hmin, hheader, -, hbound⟩ := exists_headerLines h
  cases lines with
  | nil => exact absurd hmin (by decide)
  | cons line lines =>
    have hline := hheader line List.mem_cons_self
    cases line with
    | nil => cases hline
    | cons c rest =>
      have halpha : c.isAlpha = true := by
        simp only [isHeaderLine, Bool.and_eq_true] at hline
        exact hline.1.1
      have hspace := isSpace_of_isAlpha halpha
      have hfirst : ∃ more, boundHeaderLine (c :: rest) = c :: more := by
        unfold boundHeaderLine
        split
        · exact ⟨_, rfl⟩
        · exact ⟨_, rfl⟩
      obtain ⟨more, hmore⟩ := hfirst
      rw [hbound, List.map_cons, hmore]
      cases lines with
      | nil => exact ⟨c, more, PyStr.join_singleton _ _, hspace⟩
      | cons line' lines =>
        rw [List.map_cons, PyStr.join_cons_cons]
        exact ⟨c, _, rfl, hspace⟩

/-! ## The chunks of prose -/

/-- The header before a stripped text. -/
theorem strip_header_append {header body : List Char}
    (hheader : ∃ c rest, header = c :: rest ∧ PyStr.isSpace c = false)
    (hbody : PyStr.strip body ≠ []) :
    PyStr.strip (header ++ contextSep ++ PyStr.strip body) =
      header ++ contextSep ++ PyStr.strip body := by
  obtain ⟨c, rest, rfl, hc⟩ := hheader
  obtain ⟨front, last, hlast⟩ := List.eq_nil_or_concat (PyStr.strip body) |>.resolve_left hbody
  rw [List.concat_eq_append] at hlast
  apply PyStr.strip_of_ends
  · intro d hd
    rw [List.cons_append, List.cons_append, List.head?_cons, Option.mem_some_iff] at hd
    rwa [← hd]
  · intro d hd
    rw [hlast, ← List.append_assoc, List.getLast?_concat, Option.mem_some_iff] at hd
    rw [← hd]
    exact PyStr.isSpace_getLast_strip hlast

/-- The number and the span of a chunk stay. -/
theorem ChunkData.carryHeader_span (header : List Char) (headerEnd : Nat) (c : ChunkData) :
    (c.carryHeader header headerEnd).chunkIndex = c.chunkIndex ∧
      (c.carryHeader header headerEnd).startChar = c.startChar ∧
      (c.carryHeader header headerEnd).endChar = c.endChar := by
  unfold ChunkData.carryHeader
  split <;> exact ⟨rfl, rfl, rfl⟩

/-- So do the sentences in its span. -/
theorem ChunkData.HasSentences.carryHeader {text body : List Char} {c : ChunkData}
    (h : c.HasSentences text body) (header : List Char) (headerEnd : Nat) :
    (c.carryHeader header headerEnd).HasSentences text body := by
  obtain ⟨-, hstart, hend⟩ := c.carryHeader_span header headerEnd
  have hholds : ∀ u, (c.carryHeader header headerEnd).Holds u ↔ c.Holds u := by
    intro u
    rw [ChunkData.Holds, ChunkData.Holds, hstart, hend]
  refine ⟨?_, ?_, h.ne_nil⟩
  · simp only [hholds, hstart, hend]
    exact h.span
  · simp only [hholds]
    exact h.eq

/-- What `_chunk_prose` makes of the chunks of `_chunk_by_sentences`: their numbers and spans
    stay, a chunk that starts behind the header has the header before its sentences, and one
    that has the whole header in its span is as it was. -/
structure CarriesHeader (text header : List Char) (headerEnd : Nat) (plain chunks : List ChunkData) :
    Prop where
  spans : (chunks.map fun c => (c.chunkIndex, c.startChar, c.endChar)) =
    plain.map fun c => (c.chunkIndex, c.startChar, c.endChar)
  body : ∀ c ∈ chunks, ∃ body, c.HasSentences text body ∧
    (headerEnd ≤ c.startChar → c.content = header ++ contextSep ++ body) ∧
    (c.startChar = 0 → headerEnd ≤ c.endChar → c.content = body)

/-- `_chunk_prose` is `_chunk_by_sentences` on a text without a header, and on one whose
    header leaves no room; otherwise it carries the header. -/
theorem chunkProse_header (text : List Char) (documentId : String) (maxSize overlap : Nat) :
    ((detectHeaderBlock text).1 = [] →
      chunkProse text documentId maxSize overlap =
        chunkBySentences text documentId maxSize overlap) ∧
    (maxSize ≤ (boundHeaderBlock (detectHeaderBlock text).1).length + 2 →
      chunkProse text documentId maxSize overlap =
        chunkBySentences text documentId maxSize overlap) ∧
    ((detectHeaderBlock text).1 ≠ [] →
      (boundHeaderBlock (detectHeaderBlock text).1).length + 2 < maxSize →
      ∃ effectiveMaxSize, effectiveMaxSize =
          maxSize - ((boundHeaderBlock (detectHeaderBlock text).1).length + 2) ∧
        CarriesHeader text (boundHeaderBlock (detectHeaderBlock text).1) (detectHeaderBlock text).2
          (chunkBySentences text documentId effectiveMaxSize (min overlap (effectiveMaxSize / 2)))
          (chunkProse text documentId maxSize overlap)) := by
  refine ⟨?_, ?_, ?_⟩
  · intro hnone
    simp only [chunkProse, if_pos hnone]
  · intro hfull
    simp only [chunkProse, if_pos hfull, ite_self]
  · intro hheader hroom
    refine ⟨_, rfl, ?_⟩
    simp only [chunkProse, if_neg hheader, if_neg (Nat.not_le.mpr hroom)]
    constructor
    · rw [List.map_map]
      apply List.map_congr_left
      intro c _
      obtain ⟨hindex, hstart, hend⟩ := c.carryHeader_span
        (boundHeaderBlock (detectHeaderBlock text).1) (detectHeaderBlock text).2
      simp only [Function.comp, hindex, hstart, hend]
    · intro c hc
      obtain ⟨b, hb, rfl⟩ := List.mem_map.mp hc
      have hsentences := hasSentences_of_mem hb
      obtain ⟨-, hstart, -⟩ := b.carryHeader_span
        (boundHeaderBlock (detectHeaderBlock text).1) (detectHeaderBlock text).2
      refine ⟨b.content, hsentences.carryHeader _ _, ?_, ?_⟩
      · intro hbehind
        rw [hstart] at hbehind
        have hne := hsentences.ne_nil
        rw [ChunkData.carryHeader, if_pos hbehind]
        simp only
        rw [hsentences.eq] at hne ⊢
        exact strip_header_append (isSpace_head_boundHeaderBlock hheader) hne
      · intro hzero _
        rw [hstart] at hzero
        have hpos := headerEnd_pos hheader
        -- a chunk from the start of the text begins before the end of the header
        have hbefore : ¬ (detectHeaderBlock text).2 ≤ b.startChar := by omega
        rw [ChunkData.carryHeader, if_neg hbefore]

/-- Every chunk has the bounded header in its content, or the whole header in its span. -/
def KeepsHeader (text : List Char) (chunks : List ChunkData) : Prop :=
  ∀ c ∈ chunks, boundHeaderBlock (detectHeaderBlock text).1 <:+: c.content ∨
    (c.startChar = 0 ∧ (detectHeaderBlock text).2 ≤ c.endChar)

/-- A header that leaves no room is not carried. -/
theorem chunkProse_without_header :
    (detectHeaderBlock "From: a\nTo: b\n\nOne. Two.".toList).1 ≠ [] ∧
      ¬ KeepsHeader "From: a\nTo: b\n\nOne. Two.".toList
        (chunkProse "From: a\nTo: b\n\nOne. Two.".toList "doc" 10 0) := by
  constructor
  · decide
  · intro h
    have hsecond := h
      { documentId := "doc", content := "Two.".toList, chunkIndex := 1, startChar := 20,
        endChar := 24 } (by decide)
    revert hsecond
    decide

end Inherent
