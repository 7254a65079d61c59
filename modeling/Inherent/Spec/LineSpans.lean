import Inherent.Spec.LineSizes

/-!
# The spans of the chunks of lines

The chunks of `_chunk_by_rows` and `_chunk_by_sections` do not overlap, and they cover every
line that is not blank: a line that is too long by its slices, any other line by the chunk of
its group.  Only a group that has nothing but its context may stay uncovered: where an
oversized line comes next, its slices carry the context instead.
-/

namespace Inherent

open Tiling (Tiles)

/-- The spans of some chunks lie one behind the other from the start of the line to its end,
    and the text in them is the line. -/
structure SlicesLine (text : List Char) (e : TextSpan) (slices : List ChunkData) : Prop where
  tiles : Tiles e.start e.stop (slices.map fun c => (c.startChar, c.endChar))
  concat : (slices.map fun c => PyStr.slice text c.startChar c.endChar).flatten = e.text

/-- The chunks are numbered, their spans are disjoint and increasing, and they cover every
    line that is not blank and not exempt. -/
structure CoversLines (text : List Char) (maxSize : Nat) (chunks : List ChunkData)
    (Exempt : TextSpan → Prop) : Prop where
  index : ∀ (k : Nat) (c : ChunkData), chunks[k]? = some c → c.chunkIndex = k
  increasing : chunks.Pairwise fun c d => c.endChar ≤ d.startChar
  span : ∀ c ∈ chunks, c.startChar < c.endChar ∧ c.endChar ≤ text.length
  short : ∀ e ∈ contentLines text, e.text.length ≤ maxSize →
    (∃ c ∈ chunks, c.Holds e) ∨ Exempt e
  long : ∀ e ∈ contentLines text, maxSize < e.text.length →
    (∃ slices, slices <:+: chunks ∧ SlicesLine text e slices) ∨ Exempt e

section Chunker

variable {κ : Type} (p : LineChunker κ) (documentId : String) (maxSize : Nat) (init : κ)

/-- The line is in an open group of context only when a line comes that is too long. -/
def LineChunker.MergedLine (lines : List TextSpan) (e : TextSpan) : Prop :=
  ∃ before long after, lines = before ++ long :: after ∧
    (p.run documentId maxSize init before).Merges p maxSize long ∧
    e ∈ (p.run documentId maxSize init before).group.lines

/-- Every line that is too long is cut into slices, with the context at the line before each
    of them. -/
def LineChunker.SlicesLongLines (text : List Char) (chunks : List ChunkData) : Prop :=
  ∀ (before : List TextSpan) (e : TextSpan) (after : List TextSpan),
    contentLines text = before ++ e :: after → p.IsLong maxSize e →
    ∃ slices, slices <:+: chunks ∧ SlicesLine text e slices ∧
      ∀ c ∈ slices, c.content =
        PyStr.strip (sliceBlock (p.sliceContext (p.contextAfter maxSize init before) maxSize) maxSize ++
          PyStr.slice text c.startChar c.endChar)

end Chunker

/-! ## Lines in order -/

/-- Lines that do not overlap and are not empty. -/
structure LinesOrdered (lines : List TextSpan) : Prop where
  pairwise : lines.Pairwise fun d e => d.stop ≤ e.start
  lt : ∀ e ∈ lines, e.start < e.stop

theorem linesOrdered_contentLines (text : List Char) : LinesOrdered (contentLines text) where
  pairwise := (contentLines_inOrder text).pairwise
  lt := fun _ he => start_lt_stop_of_mem_contentLines he

/-- The lines from the first to the last one lie between the start and the end of these. -/
theorem LinesOrdered.span_of_mem {lines : List TextSpan} (h : LinesOrdered lines) {e : TextSpan}
    (he : e ∈ lines) : (lines.head?.map TextSpan.start).getD 0 ≤ e.start ∧
      e.stop ≤ (lines.getLast?.map TextSpan.stop).getD 0 := by
  obtain ⟨before, after, rfl⟩ := List.mem_iff_append.mp he
  have hpair := List.pairwise_append.mp h.pairwise
  constructor
  · cases before with
    | nil => simp
    | cons d before =>
      have hde := hpair.2.2 d List.mem_cons_self e List.mem_cons_self
      have hlt := h.lt d (by simp)
      simp only [List.cons_append, List.head?_cons, Option.map_some, Option.getD_some]
      omega
  · rcases List.eq_nil_or_concat after with rfl | ⟨after, d, rfl⟩
    · simp
    · rw [List.concat_eq_append] at *
      have hed := (List.pairwise_cons.mp hpair.2.1).1 d (by simp)
      have hlt := h.lt d (by simp)
      rw [← List.cons_append, ← List.append_assoc, List.getLast?_concat]
      simp only [Option.map_some, Option.getD_some]
      omega

/-- No line stands in two places. -/
theorem LinesOrdered.eq_of_append {lines before after before' after' : List TextSpan} {e : TextSpan}
    (h : LinesOrdered lines) (heq : lines = before ++ e :: after)
    (heq' : lines = before' ++ e :: after') : before = before' := by
  have hnot : ∀ {as bs : List TextSpan}, lines = as ++ e :: bs → e ∉ as ∧ e ∉ bs := by
    intro as bs has
    have hpair := List.pairwise_append.mp (has ▸ h.pairwise)
    have hlt := h.lt e (by simp [has])
    constructor
    · intro hmem
      have := hpair.2.2 e hmem e List.mem_cons_self
      omega
    · intro hmem
      have := (List.pairwise_cons.mp hpair.2.1).1 e hmem
      omega
  have hmem := hnot heq
  exact ((List.append_cons_inj_of_notMem hmem.1 hmem.2).mp (heq.symm.trans heq')).1

/-! ## The parts of a block -/

/-- The chunks of a block have spans, which lie within the lines of the block. -/
theorem LineBlock.part_bounds {b : LineBlock} {maxSize : Nat} (hb : LinesOrdered b.lines)
    (hne : b.lines ≠ []) (hstop : ∀ e ∈ b.lines, e.stop = e.start + e.text.length)
    {q : TextSpan} (hq : q ∈ b.parts maxSize) :
    q.start < q.stop ∧ (∃ d ∈ b.lines, d.start ≤ q.start) ∧ ∃ d ∈ b.lines, q.stop ≤ d.stop := by
  cases b with
  | packed g context =>
    rw [LineBlock.parts, List.mem_singleton] at hq
    rw [hq]
    have hlines : g.lines ≠ [] := hne
    have hhead : g.lines.head? = some (g.lines.head hlines) := List.head?_eq_some_head hlines
    have hlast : g.lines.getLast? = some (g.lines.getLast hlines) :=
      List.getLast?_eq_some_getLast hlines
    have hspan := hb.span_of_mem (List.head_mem hlines)
    have hlt := hb.lt _ (List.head_mem hlines)
    rw [LineBlock.lines, hhead, hlast] at hspan
    simp only [Option.map_some, Option.getD_some] at hspan
    simp only [hhead, hlast, Option.map_some, Option.getD_some]
    exact ⟨by omega, ⟨_, List.head_mem hlines, Nat.le_refl _⟩,
      ⟨_, List.getLast_mem hlines, Nat.le_refl _⟩⟩
  | sliced merged line context =>
    obtain ⟨s, hs, rfl⟩ := List.mem_map.mp hq
    have hmem : line ∈ (LineBlock.sliced merged line context).lines := by simp [LineBlock.lines]
    have hbounds := (tiles_sliceSteps context maxSize line).bounds hs
    have hline := hstop line hmem
    simp only
    exact ⟨by omega, ⟨line, hmem, by omega⟩, ⟨line, hmem, by omega⟩⟩

theorem LineBlock.parts_pairwise (b : LineBlock) (maxSize : Nat) :
    (b.parts maxSize).Pairwise fun q r => q.stop ≤ r.start := by
  cases b with
  | packed g context => exact List.pairwise_singleton _ _
  | sliced merged line context =>
    have h := (tiles_sliceSteps context maxSize line).pairwise
    rw [LineBlock.parts, List.pairwise_map]
    exact h.imp fun hst => Nat.add_le_add_left hst line.start

/-- Chunks with the spans of a tiling of a line slice it. -/
theorem SlicesLine.of_tiles {text : List Char} {e : TextSpan} {slices : List ChunkData}
    (he : e ∈ contentLines text)
    (htiles : Tiles e.start e.stop (slices.map fun c => (c.startChar, c.endChar))) :
    SlicesLine text e slices where
  tiles := htiles
  concat := by
    have hle := ((contentLines_inOrder text).start_le e he).2.2
    have htext := ((contentLines_inOrder text).stop_eq he).2
    have h := htiles.flatten hle
    rw [List.map_map] at h
    rw [htext]
    exact h

/-! ## All chunks -/

section Covers

variable {κ : Type} {p : LineChunker κ} {documentId : String} {maxSize : Nat} {init : κ}
  {text : List Char} {blocks : List LineBlock}

theorem LineChunker.IsBlocks.lines_ne_nil (h : p.IsBlocks documentId maxSize init text blocks)
    {b : LineBlock} (hb : b ∈ blocks) : b.lines ≠ [] := by
  cases h.arises b hb with
  | packed _ _ _ hopen => exact hopen
  | sliced | merged => simp [LineBlock.lines]

theorem LineChunker.IsBlocks.lines_infix (h : p.IsBlocks documentId maxSize init text blocks)
    {b : LineBlock} (hb : b ∈ blocks) : b.lines <:+: contentLines text := by
  obtain ⟨before, after, hsplit⟩ := List.mem_iff_append.mp hb
  rw [← h.lines, hsplit, List.flatMap_append, List.flatMap_cons]
  exact ⟨_, _, List.append_assoc _ _ _⟩

theorem LineChunker.IsBlocks.linesOrdered (h : p.IsBlocks documentId maxSize init text blocks)
    {b : LineBlock} (hb : b ∈ blocks) : LinesOrdered b.lines where
  pairwise := (linesOrdered_contentLines text).pairwise.sublist (h.lines_infix hb).sublist
  lt := fun e he => (linesOrdered_contentLines text).lt e ((h.lines_infix hb).subset he)

/-- The chunks of a block lie within its lines. -/
theorem LineChunker.IsBlocks.part_bounds (h : p.IsBlocks documentId maxSize init text blocks)
    {b : LineBlock} (hb : b ∈ blocks) {q : TextSpan} (hq : q ∈ b.parts maxSize) :
    q.start < q.stop ∧ (∃ d ∈ b.lines, d.start ≤ q.start) ∧ ∃ d ∈ b.lines, q.stop ≤ d.stop := by
  apply LineBlock.part_bounds (h.linesOrdered hb) (h.lines_ne_nil hb) ?_ hq
  exact fun e he => ((contentLines_inOrder text).stop_eq ((h.lines_infix hb).subset he)).1

/-- The chunks do not overlap. -/
theorem LineChunker.IsBlocks.increasing (h : p.IsBlocks documentId maxSize init text blocks) :
    (p.chunks documentId maxSize init text).Pairwise fun c d => c.endChar ≤ d.startChar := by
  have hlines := (linesOrdered_contentLines text).pairwise
  rw [← h.lines, List.pairwise_flatMap] at hlines
  have hparts : (blocks.flatMap (LineBlock.parts maxSize)).Pairwise fun q r => q.stop ≤ r.start := by
    rw [List.pairwise_flatMap]
    refine ⟨fun b _ => b.parts_pairwise maxSize, ?_⟩
    apply hlines.2.imp_of_mem
    intro b b' hb hb' hbb' q hq r hr
    obtain ⟨-, -, d, hd, hqd⟩ := h.part_bounds hb hq
    obtain ⟨-, ⟨d', hd', hrd'⟩, -⟩ := h.part_bounds hb' hr
    have := hbb' d hd d' hd'
    omega
  rw [← h.parts, List.pairwise_map] at hparts
  exact hparts

theorem LineChunker.IsBlocks.span (h : p.IsBlocks documentId maxSize init text blocks) :
    ∀ c ∈ p.chunks documentId maxSize init text,
      c.startChar < c.endChar ∧ c.endChar ≤ text.length := by
  intro c hc
  obtain ⟨b, hb, hq⟩ := h.exists_of_mem hc
  obtain ⟨hlt, -, d, hd, hle⟩ := h.part_bounds hb hq
  have := ((contentLines_inOrder text).start_le d ((h.lines_infix hb).subset hd)).2.2
  exact ⟨hlt, Nat.le_trans hle this⟩

/-- The block of a line that is too long has its slices. -/
theorem LineChunker.IsBlocks.exists_sliced (h : p.IsBlocks documentId maxSize init text blocks)
    {before after : List TextSpan} {e : TextSpan} (hlines : contentLines text = before ++ e :: after)
    (hlong : p.IsLong maxSize e) :
    ∃ merged, LineBlock.sliced merged e
      (p.sliceContext (p.contextAfter maxSize init before) maxSize) ∈ blocks := by
  obtain ⟨b, hb, heb⟩ := h.exists_of_mem_lines (e := e) (by simp [hlines])
  have harises := h.arises b hb
  -- the line is the last one of its block, which is closed where the line stands
  cases harises with
  | packed before' after' hlines' =>
    exact absurd hlong (p.not_isLong_of_mem_group documentId maxSize init (strip_ne_nil_of_append hlines') e heb)
  | sliced before' e' after' hlines' =>
    rw [LineBlock.lines, List.nil_append, List.mem_singleton] at heb
    subst heb
    rw [(linesOrdered_contentLines text).eq_of_append hlines hlines']
    exact ⟨_, hb⟩
  | merged before' e' after' hlines' =>
    rcases List.mem_append.mp heb with heb | heb
    · exact absurd hlong (p.not_isLong_of_mem_group documentId maxSize init (strip_ne_nil_of_append hlines') e heb)
    · rw [List.mem_singleton] at heb
      subst heb
      rw [(linesOrdered_contentLines text).eq_of_append hlines hlines']
      exact ⟨_, hb⟩

/-- The slices of a line that is too long. -/
theorem LineChunker.IsBlocks.slicesLongLines (h : p.IsBlocks documentId maxSize init text blocks) :
    p.SlicesLongLines maxSize init text (p.chunks documentId maxSize init text) := by
  intro before e after hlines hlong
  have he : e ∈ contentLines text := by simp [hlines]
  obtain ⟨hstop, htext⟩ := (contentLines_inOrder text).stop_eq he
  obtain ⟨merged, hb⟩ := h.exists_sliced hlines hlong
  obtain ⟨slices, hinfix, hslices⟩ := h.exists_infix hb
  refine ⟨slices, hinfix, SlicesLine.of_tiles he ?_, ?_⟩
  · have htiles := (tiles_sliceSteps (p.sliceContext (p.contextAfter maxSize init before) maxSize)
      maxSize e).shift e.start
    have hspans := congrArg (List.map fun q => (q.start, q.stop)) hslices
    simp only [LineBlock.parts, List.map_map, Function.comp_def, ChunkData.part] at hspans
    rw [hspans, hstop]
    exact htiles
  · intro c hc
    have hpart : c.part ∈ slices.map ChunkData.part := List.mem_map_of_mem hc
    rw [hslices] at hpart
    obtain ⟨s, hs, hsc⟩ := List.mem_map.mp hpart
    have hbounds := (tiles_sliceSteps _ _ _).bounds hs
    simp only [ChunkData.part, TextSpan.mk.injEq] at hsc
    obtain ⟨hcontent, hstart, hend⟩ := hsc
    rw [← hcontent, ← hstart, ← hend, slice_line he hbounds.2.2]

/-- A line of a group that is merged. -/
theorem mergedLine_of_arises {before after : List TextSpan} {long e : TextSpan}
    (hlines : contentLines text = before ++ long :: after) (hlong : p.IsLong maxSize long)
    (horphan : p.isOrphan (p.contextAfter maxSize init before)
      (p.run documentId maxSize init before).group = true)
    (he : e ∈ (p.run documentId maxSize init before).group.lines) :
    p.MergedLine documentId maxSize init (contentLines text) e := by
  refine ⟨before, long, after, hlines, ⟨hlong, ?_⟩, he⟩
  rw [p.run_ctx documentId maxSize init (strip_ne_nil_of_append hlines)]
  exact horphan

/-- The chunk of a group has the lines of the group in its span. -/
theorem LineChunker.IsBlocks.exists_chunk (h : p.IsBlocks documentId maxSize init text blocks)
    {g : LineGroup} {context : List Char} (hb : LineBlock.packed g context ∈ blocks) :
    ∃ c, [c] <:+: p.chunks documentId maxSize init text ∧
      c.startChar = (g.lines.head?.map TextSpan.start).getD 0 ∧
      c.endChar = (g.lines.getLast?.map TextSpan.stop).getD 0 ∧
      c.content = PyStr.strip (g.content context) := by
  obtain ⟨cs, hinfix, hcs⟩ := h.exists_infix hb
  rw [LineBlock.parts] at hcs
  obtain ⟨c, rfl, hc⟩ := List.map_eq_singleton_iff.mp hcs
  simp only [ChunkData.part, TextSpan.mk.injEq] at hc
  exact ⟨c, hinfix, hc.2.1, hc.2.2, hc.1⟩

theorem LineChunker.IsBlocks.covers_short (h : p.IsBlocks documentId maxSize init text blocks)
    {e : TextSpan} (he : e ∈ contentLines text) (hshort : e.text.length ≤ maxSize) :
    (∃ c ∈ p.chunks documentId maxSize init text, c.Holds e) ∨
      p.MergedLine documentId maxSize init (contentLines text) e := by
  obtain ⟨b, hb, heb⟩ := h.exists_of_mem_lines he
  have hspan := (h.linesOrdered hb).span_of_mem heb
  have harises := h.arises b hb
  cases harises with
  | packed before after hlines hopen hkept =>
    obtain ⟨c, hc, hstart, hend, -⟩ := h.exists_chunk hb
    refine .inl ⟨c, hc.subset (List.mem_singleton_self c), ?_⟩
    rw [ChunkData.Holds, hstart, hend]
    exact hspan
  | sliced before long after hlines hlong =>
    rw [LineBlock.lines, List.nil_append, List.mem_singleton] at heb
    exact absurd hlong.2 (Nat.not_lt.mpr (heb ▸ hshort))
  | merged before long after hlines hlong horphan =>
    rcases List.mem_append.mp heb with heb | heb
    · exact .inr (mergedLine_of_arises hlines hlong horphan heb)
    · rw [List.mem_singleton] at heb
      exact absurd hlong.2 (Nat.not_lt.mpr (heb ▸ hshort))

variable (p documentId maxSize init) in
/-- A group with a heading that is too long has no other line. -/
theorem LineChunker.group_eq_of_long {lines : List TextSpan}
    (hlines : ∀ d ∈ lines, PyStr.strip d.text ≠ []) {e : TextSpan}
    (he : e ∈ (p.run documentId maxSize init lines).group.lines) (hlong : maxSize < e.text.length) :
    (p.run documentId maxSize init lines).group.lines = [e] := by
  have hjoined := length_le_joined he
  have hone : (p.run documentId maxSize init lines).group.lines.length = 1 := by
    have hpos := List.length_pos_of_mem he
    by_contra hnot
    have htwo : 2 ≤ (p.run documentId maxSize init lines).group.lines.length := by omega
    have hle := (p.run_sized documentId maxSize init hlines).length_content_le htwo
      (p.strip_ne_nil_of_mem_group documentId maxSize init hlines)
    rw [LineGroup.length_content] at hle
    split at hle <;> omega
  obtain ⟨d, hd⟩ := List.length_eq_one_iff.mp hone
  rw [hd] at he ⊢
  rw [List.mem_singleton.mp he]

theorem LineChunker.IsBlocks.covers_long (h : p.IsBlocks documentId maxSize init text blocks)
    {e : TextSpan} (he : e ∈ contentLines text) (htoolong : maxSize < e.text.length) :
    (∃ slices, slices <:+: p.chunks documentId maxSize init text ∧ SlicesLine text e slices) ∨
      p.MergedLine documentId maxSize init (contentLines text) e := by
  by_cases hlong : p.IsLong maxSize e
  · obtain ⟨before, after, hlines⟩ := List.mem_iff_append.mp he
    obtain ⟨slices, hinfix, hslices, -⟩ := h.slicesLongLines before e after hlines hlong
    exact .inl ⟨slices, hinfix, hslices⟩
  · obtain ⟨b, hb, heb⟩ := h.exists_of_mem_lines he
    have harises := h.arises b hb
    cases harises with
    | packed before after hlines hopen hkept =>
      have hone := p.group_eq_of_long documentId maxSize init (strip_ne_nil_of_append hlines) heb htoolong
      obtain ⟨c, hc, hstart, hend, -⟩ := h.exists_chunk hb
      rw [hone] at hstart hend
      refine .inl ⟨[c], hc, SlicesLine.of_tiles he ⟨hstart, ?_, hend⟩⟩
      simp only [hend, List.getLast?_singleton, Option.map_some, Option.getD_some]
      exact start_lt_stop_of_mem_contentLines he
    | sliced before long after hlines hlong' =>
      rw [LineBlock.lines, List.nil_append, List.mem_singleton] at heb
      exact absurd (heb ▸ hlong') hlong
    | merged before long after hlines hlong' horphan =>
      rcases List.mem_append.mp heb with heb | heb
      · exact .inr (mergedLine_of_arises hlines hlong' horphan heb)
      · rw [List.mem_singleton] at heb
        exact absurd (heb ▸ hlong') hlong

/-- The chunks cover all lines, but for those that are merged. -/
theorem LineChunker.IsBlocks.coversLines (h : p.IsBlocks documentId maxSize init text blocks) :
    CoversLines text maxSize (p.chunks documentId maxSize init text)
      (p.MergedLine documentId maxSize init (contentLines text)) where
  index := h.index
  increasing := h.increasing
  span := h.span
  short := fun _ he hshort => h.covers_short he hshort
  long := fun _ he hlong => h.covers_long he hlong

end Covers

/-! ## Rows and sections -/

/-- `_chunk_by_rows` and `_chunk_by_sections` cover every line, in order, but for a group of
    context only that is merged into the slices of the next line, which carry the context.
    A text without sections is split by size. -/
theorem line_chunks_cover (text : List Char) (documentId : String) (maxSize overlap : Nat)
    (hmax : 1 ≤ maxSize) :
    (CoversLines text maxSize (chunkByRows text documentId maxSize)
        (rowChunker.MergedLine documentId maxSize {} (contentLines text)) ∧
      rowChunker.SlicesLongLines maxSize {} text (chunkByRows text documentId maxSize)) ∧
    ∃ chunks, chunkBySections text documentId maxSize overlap = some chunks ∧
      (hasSectionMarkers text = true →
        CoversLines text maxSize chunks
            (sectionChunker.MergedLine documentId maxSize none (contentLines text)) ∧
          sectionChunker.SlicesLongLines maxSize none text chunks) ∧
      (hasSectionMarkers text = false → SplitsBySize text maxSize chunks) := by
  constructor
  · obtain ⟨blocks, hblocks⟩ := exists_isBlocks rowChunker documentId maxSize {} text
    exact ⟨hblocks.coversLines, hblocks.slicesLongLines⟩
  · cases hmarkers : hasSectionMarkers text with
    | true =>
      obtain ⟨blocks, hblocks⟩ := exists_isBlocks sectionChunker documentId maxSize none text
      refine ⟨_, by rw [chunkBySections, if_pos hmarkers], fun _ => ?_, by simp⟩
      exact ⟨hblocks.coversLines, hblocks.slicesLongLines⟩
    | false =>
      obtain ⟨chunks, hchunks, hindex, hpieces⟩ := chunkBySize_eq text documentId overlap hmax
      refine ⟨chunks, ?_, by simp, fun _ => splitsBySize_of_pieces hmax hindex hpieces⟩
      rw [chunkBySections, if_neg (by simp [hmarkers]), hchunks]

theorem line_chunks_cover_oneSheet :
    (CoversLines "## Sheet:A\nx\nabcdefghijklmnop\ny".toList 12
        (chunkByRows "## Sheet:A\nx\nabcdefghijklmnop\ny".toList "doc" 12)
        (rowChunker.MergedLine "doc" 12 {}
          (contentLines "## Sheet:A\nx\nabcdefghijklmnop\ny".toList)) ∧
      rowChunker.SlicesLongLines 12 {} "## Sheet:A\nx\nabcdefghijklmnop\ny".toList
        (chunkByRows "## Sheet:A\nx\nabcdefghijklmnop\ny".toList "doc" 12)) ∧
    ∃ chunks, chunkBySections "## Sheet:A\nx\nabcdefghijklmnop\ny".toList "doc" 12 0 = some chunks ∧
      (hasSectionMarkers "## Sheet:A\nx\nabcdefghijklmnop\ny".toList = true →
        CoversLines "## Sheet:A\nx\nabcdefghijklmnop\ny".toList 12 chunks
            (sectionChunker.MergedLine "doc" 12 none
              (contentLines "## Sheet:A\nx\nabcdefghijklmnop\ny".toList)) ∧
          sectionChunker.SlicesLongLines 12 none "## Sheet:A\nx\nabcdefghijklmnop\ny".toList chunks) ∧
      (hasSectionMarkers "## Sheet:A\nx\nabcdefghijklmnop\ny".toList = false →
        SplitsBySize "## Sheet:A\nx\nabcdefghijklmnop\ny".toList 12 chunks) :=
  line_chunks_cover _ "doc" 12 0 (by decide)

/-- The heading before an oversized row is in no span, and without sections the spans
    overlap. -/
theorem line_chunks_uncovered :
    ¬ CoversLines "## Sheet:A\nabcdefghijklmnop".toList 12
        (chunkByRows "## Sheet:A\nabcdefghijklmnop".toList "doc" 12) (fun _ => False) ∧
      ∀ chunks, chunkBySections "one two three".toList "doc" 6 3 = some chunks →
        ¬ CoversLines "one two three".toList 6 chunks (fun _ => False) := by
  constructor
  · intro h
    have hheading := h.short { text := "## Sheet:A".toList, start := 0, stop := 10 }
      (by decide) (by decide)
    revert hheading
    decide
  · intro chunks hchunks h
    have hchunks' : chunkBySections "one two three".toList "doc" 6 3 = some
        [{ documentId := "doc", content := "one".toList, chunkIndex := 0, startChar := 0, endChar := 3 },
         { documentId := "doc", content := "two".toList, chunkIndex := 1, startChar := 3, endChar := 7 },
         { documentId := "doc", content := "two".toList, chunkIndex := 2, startChar := 4, endChar := 7 },
         { documentId := "doc", content := "three".toList, chunkIndex := 3, startChar := 7, endChar := 13 },
         { documentId := "doc", content := "ree".toList, chunkIndex := 4, startChar := 10, endChar := 13 }] := by
      decide
    have hinc := h.increasing
    rw [← Option.some.inj (hchunks'.symm.trans hchunks)] at hinc
    revert hinc
    decide

end Inherent
