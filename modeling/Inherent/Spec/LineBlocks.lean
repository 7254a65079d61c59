import Inherent.ForStd.Tiling
import Inherent.Native.LineChunks
import Inherent.Spec.PackedUnits

/-!
# The blocks of the line packer

`_chunk_by_rows` and `_chunk_by_sections` take the lines of a text in order and close one
block after the other: a group of lines that becomes a chunk, or a line that is cut into
slices, with the group that is merged into them.  The blocks are the lines of the text in
order, and each one is closed in a state that a run over the lines before it reaches.
-/

namespace Inherent

open Tiling (Tiles steps)

/-! ## The lines of a text -/

/-- The lines that are not blank. -/
def contentLines (text : List Char) : List TextSpan :=
  (lineEntries text).filter fun e => PyStr.strip e.text ≠ []

/-- The lines stand in the text in order, with line ends between them. -/
theorem lineEntriesFrom_inOrder (before : List Char) (raws : List (List Char)) :
    InOrder (before ++ raws.flatten) before.length (lineEntriesFrom before.length raws) := by
  induction raws generalizing before with
  | nil => trivial
  | cons raw raws ih =>
    obtain ⟨newline, hraw, hnewline⟩ := PyStr.exists_append_rstripNewlines raw
    have hblank : PyStr.Blank newline := by
      intro c hc
      rcases hnewline c hc with rfl | rfl <;> decide
    have htext : before ++ (raw :: raws).flatten =
        before ++ [] ++ PyStr.rstripNewlines raw ++ (newline ++ raws.flatten) := by
      have hsplit : raw ++ raws.flatten = PyStr.rstripNewlines raw ++ (newline ++ raws.flatten) := by
        rw [← List.append_assoc, ← hraw]
      rw [List.flatten_cons, hsplit]
      simp only [List.append_assoc, List.nil_append]
    have hlen : raw.length = (PyStr.rstripNewlines raw).length + newline.length := by
      rw [← List.length_append, ← hraw]
    rw [htext, lineEntriesFrom]
    apply inOrder_cons before _ _ _ PyStr.blank_nil
    -- the next line starts behind the line end
    have hrest := ih (before ++ raw)
    rw [List.length_append, List.append_assoc, ← List.flatten_cons, htext] at hrest
    refine hrest.weaken ?_ ?_ ?_
    · simp only [List.length_nil]
      omega
    · simp only [List.length_append, List.length_nil]
      omega
    · have h := PyStr.slice_append (before ++ PyStr.rstripNewlines raw) newline raws.flatten
      rw [List.length_append] at h
      simp only [BlankBetween, List.length_nil, Nat.add_zero, List.append_nil, hlen,
        ← List.append_assoc]
      rw [← Nat.add_assoc, h]
      exact hblank

theorem map_text_lineEntriesFrom (cursor : Nat) (raws : List (List Char)) :
    (lineEntriesFrom cursor raws).map TextSpan.text = raws.map PyStr.rstripNewlines := by
  induction raws generalizing cursor with
  | nil => rfl
  | cons raw raws ih => rw [lineEntriesFrom, List.map_cons, List.map_cons, ih]

theorem lineEntries_inOrder (text : List Char) : InOrder text 0 (lineEntries text) := by
  have h := lineEntriesFrom_inOrder [] (PyStr.splitlines text)
  rw [PyStr.flatten_splitlines] at h
  exact h

/-- Blank units may be left out. -/
theorem InOrder.filter {text : List Char} {cursor : Nat} {us : List TextSpan} {p : TextSpan → Bool}
    (h : InOrder text cursor us) (hp : ∀ u ∈ us, p u = false → PyStr.Blank u.text) :
    InOrder text cursor (us.filter p) := by
  induction us generalizing cursor with
  | nil => trivial
  | cons u us ih =>
    obtain ⟨hstart, hstop, hlen, htext, hbetween, hrest⟩ := h
    have hrest' := ih hrest fun v hv => hp v (List.mem_cons_of_mem _ hv)
    by_cases hu : p u = true
    · rw [List.filter_cons_of_pos hu]
      exact ⟨hstart, hstop, hlen, htext, hbetween, hrest'⟩
    · rw [List.filter_cons_of_neg hu]
      have hblank : BlankBetween text u.start u.stop := by
        rw [BlankBetween, ← htext]
        exact hp u List.mem_cons_self (by simpa using hu)
      exact hrest'.weaken (by omega) hlen
        (hbetween.trans hstart (by omega) (by omega) hblank)

/-- The lines that are not blank stand in the text in order, with whitespace between them. -/
theorem contentLines_inOrder (text : List Char) : InOrder text 0 (contentLines text) := by
  apply (lineEntries_inOrder text).filter
  intro e _ he
  rw [decide_eq_false_iff_not, not_not] at he
  exact PyStr.strip_eq_nil_iff.mp he

theorem strip_ne_nil_of_mem_contentLines {text : List Char} {e : TextSpan}
    (he : e ∈ contentLines text) : PyStr.strip e.text ≠ [] := by
  have := (List.mem_filter.mp he).2
  simpa using this

theorem strip_ne_nil_of_append {text : List Char} {before after : List TextSpan}
    (hlines : contentLines text = before ++ after) : ∀ e ∈ before, PyStr.strip e.text ≠ [] := by
  intro e he
  have hmem : e ∈ contentLines text := by
    rw [hlines]
    exact List.mem_append_left _ he
  exact strip_ne_nil_of_mem_contentLines hmem

theorem text_ne_nil_of_strip {e : TextSpan} (h : PyStr.strip e.text ≠ []) : e.text ≠ [] := by
  intro hnil
  rw [hnil] at h
  exact h rfl

theorem InOrder.stop_eq {text : List Char} {cursor : Nat} {us : List TextSpan} {u : TextSpan}
    (h : InOrder text cursor us) (hu : u ∈ us) :
    u.stop = u.start + u.text.length ∧ u.text = PyStr.slice text u.start u.stop := by
  induction us generalizing cursor with
  | nil => cases hu
  | cons v us ih =>
    obtain ⟨-, hstop, -, htext, -, hrest⟩ := h
    cases hu with
    | head => exact ⟨hstop, htext⟩
    | tail _ hu => exact ih hrest hu

/-- A part of a line is a part of the text. -/
theorem slice_line {text : List Char} {e : TextSpan} (he : e ∈ contentLines text) {a b : Nat}
    (hb : b ≤ e.text.length) :
    PyStr.slice text (e.start + a) (e.start + b) = PyStr.slice e.text a b := by
  obtain ⟨hstop, htext⟩ := (contentLines_inOrder text).stop_eq he
  have hle : e.start + b ≤ e.stop := by omega
  rw [htext, PyStr.slice_slice hle]

/-- A line that is not blank takes room in the text. -/
theorem start_lt_stop_of_mem_contentLines {text : List Char} {e : TextSpan}
    (he : e ∈ contentLines text) : e.start < e.stop := by
  have hstop := ((contentLines_inOrder text).stop_eq he).1
  have := List.length_pos_iff.mpr (text_ne_nil_of_strip (strip_ne_nil_of_mem_contentLines he))
  omega

/-- The chunk has a part of the line. -/
def ChunkData.Touches (c : ChunkData) (e : TextSpan) : Prop :=
  c.startChar < e.stop ∧ e.start < c.endChar

/-! ## Blocks -/

/-- What becomes of some lines in a row: one chunk of them, or slices of the last one, with
    the lines before it merged into them. -/
inductive LineBlock where
  | packed (group : LineGroup) (context : List Char)
  | sliced (merged : List TextSpan) (line : TextSpan) (context : List Char)
  deriving DecidableEq, Repr

/-- The lines of a block. -/
def LineBlock.lines : LineBlock → List TextSpan
  | .packed group _ => group.lines
  | .sliced merged line _ => merged ++ [line]

/-- The spans of the slices of a line, from its start. -/
def sliceSteps (context : List Char) (maxSize : Nat) (line : TextSpan) : List (Nat × Nat) :=
  steps (sliceBudget context maxSize) line.text.length line.text.length 0

/-- The content and the span of each chunk of a block. -/
def LineBlock.parts (maxSize : Nat) : LineBlock → List TextSpan
  | .packed group context =>
    [{ text := PyStr.strip (group.content context)
       start := (group.lines.head?.map TextSpan.start).getD 0
       stop := (group.lines.getLast?.map TextSpan.stop).getD 0 }]
  | .sliced _ line context =>
    (sliceSteps context maxSize line).map fun s =>
      { text := PyStr.strip (sliceBlock context maxSize ++ PyStr.slice line.text s.1 s.2)
        start := line.start + s.1
        stop := line.start + s.2 }

/-- The content and the span of a chunk. -/
def ChunkData.part (c : ChunkData) : TextSpan :=
  { text := c.content, start := c.startChar, stop := c.endChar }

/-- The chunks so far are numbered, and have these contents and spans. -/
structure ChunkSink.Has (sink : ChunkSink) (parts : List TextSpan) : Prop where
  indexed : sink.Indexed
  parts : sink.chunks.map ChunkData.part = parts

theorem ChunkSink.has_empty : ChunkSink.Has {} [] := ⟨ChunkSink.indexed_empty, rfl⟩

theorem ChunkSink.Has.add {sink : ChunkSink} {parts : List TextSpan} (h : sink.Has parts)
    (documentId : String) (content : List Char) (startChar endChar : Nat) :
    (sink.add documentId content startChar endChar []).Has
      (parts ++ [{ text := content, start := startChar, stop := endChar }]) where
  indexed := h.indexed.add _ _ _ _ _
  parts := by simp [ChunkSink.add, ChunkData.part, h.parts]

/-- The block of the open group, if there is one. -/
def LineGroup.closed (g : LineGroup) (context : List Char) : List LineBlock :=
  if g.lines = [] then [] else [.packed g context]

theorem LineGroup.flatMap_lines_closed (g : LineGroup) (context : List Char) :
    (g.closed context).flatMap LineBlock.lines = g.lines := by
  unfold LineGroup.closed
  split
  · rename_i hnil
    rw [hnil, List.flatMap_nil]
  · rw [List.flatMap_singleton, LineBlock.lines]

/-- `flush` adds the chunk of the open group. -/
theorem ChunkSink.Has.flush {sink : ChunkSink} {parts : List TextSpan} (h : sink.Has parts)
    (g : LineGroup) (documentId : String) (context : List Char) (maxSize : Nat) :
    (g.flush documentId context sink).Has
      (parts ++ (g.closed context).flatMap (LineBlock.parts maxSize)) := by
  unfold LineGroup.flush LineGroup.closed
  split
  · simpa using h
  · rw [List.flatMap_singleton]
    exact h.add _ _ _ _

/-- The budget of a slice is not 0. -/
theorem sliceBudget_pos (context : List Char) (maxSize : Nat) :
    0 < sliceBudget context maxSize := by
  have hfloor : 0 < sliceFloor maxSize := Nat.lt_of_lt_of_le Nat.zero_lt_one (Nat.le_max_left _ _)
  exact Nat.lt_of_lt_of_le hfloor (Nat.le_max_left _ _)

theorem ChunkSink.Has.sliceLoop {sink : ChunkSink} {parts : List TextSpan} (h : sink.Has parts)
    (line : TextSpan) (documentId : String) (block : List Char) (budget fuel pos : Nat) :
    (sliceLoop line documentId block budget fuel pos sink).Has
      (parts ++ (steps budget line.text.length fuel pos).map fun s =>
        { text := PyStr.strip (block ++ PyStr.slice line.text s.1 s.2)
          start := line.start + s.1
          stop := line.start + s.2 }) := by
  induction fuel generalizing sink parts pos with
  | zero => simpa [Inherent.sliceLoop, steps] using h
  | succ fuel ih =>
    unfold Inherent.sliceLoop steps
    split
    · rw [List.map_cons, List.append_cons]
      exact ih (h.add _ _ _ _) _
    · simpa using h

/-- `_slice_oversized_line` adds the slices of the line. -/
theorem ChunkSink.Has.slice {sink : ChunkSink} {parts : List TextSpan} (h : sink.Has parts)
    (merged : List TextSpan) (line : TextSpan) (documentId : String) (maxSize : Nat)
    (context : List Char) :
    (sliceOversizedLine line documentId maxSize context sink).Has
      (parts ++ (LineBlock.sliced merged line context).parts maxSize) :=
  h.sliceLoop line documentId _ _ _ _

/-- The slices are the whole line. -/
theorem tiles_sliceSteps (context : List Char) (maxSize : Nat) (line : TextSpan) :
    Tiles 0 line.text.length (sliceSteps context maxSize line) :=
  Tiling.tiles_steps (sliceBudget_pos context maxSize) (Nat.zero_le _) (Nat.sub_le _ _)

/-! ## One round of the loop -/

section Round

variable {κ : Type} (p : LineChunker κ) (documentId : String) (maxSize : Nat)

/-- A line of normal size that starts no section. -/
def LineChunker.IsShort (e : TextSpan) : Prop :=
  p.newSection e.text = none ∧ e.text.length ≤ maxSize

/-- A line that starts no section and is longer than `max_size`. -/
def LineChunker.IsLong (e : TextSpan) : Prop :=
  p.newSection e.text = none ∧ maxSize < e.text.length

/-- The context behind a line. -/
def LineChunker.contextStep (ctx : κ) (e : TextSpan) : κ :=
  match p.newSection e.text with
  | some ctx => ctx
  | none => if e.text.length ≤ maxSize ∧ p.adopts ctx = true then p.adopt ctx e.text else ctx

/-- The open group is merged into the slices of the line. -/
def LineState.Merges (s : LineState κ) (e : TextSpan) : Prop :=
  p.IsLong maxSize e ∧ p.isOrphan s.ctx s.group = true

/-- The line has no room in the open group. -/
def LineState.Full (s : LineState κ) (e : TextSpan) : Prop :=
  s.group.packCap (p.context s.ctx maxSize) maxSize < s.group.size + (e.text.length + 1)

/-- What holds between two rounds: nothing is left of a group that was closed, and a group
    into which a line will be adopted has its context. -/
structure LineState.Sound (s : LineState κ) : Prop where
  fresh : s.group.lines = [] → s.group = {}
  adopts : s.group.lines ≠ [] → p.adopts s.ctx = true → s.group.hasContext = true

/-- What one round does with a line that is not blank. -/
inductive LineStep (s : LineState κ) (e : TextSpan) : LineState κ → Prop
  | newSection (ctx : κ) (hnew : p.newSection e.text = some ctx) :
    LineStep s e
      { ctx := ctx
        group := { lines := [e], size := e.text.length, hasContext := true }
        sink := s.group.flush documentId (p.context s.ctx maxSize) s.sink }
  | merged (hmerges : s.Merges p maxSize e) :
    LineStep s e
      { ctx := s.ctx
        sink := sliceOversizedLine e documentId maxSize (p.sliceContext s.ctx maxSize) s.sink }
  | sliced (hlong : p.IsLong maxSize e) (hkept : p.isOrphan s.ctx s.group ≠ true) :
    LineStep s e
      { ctx := s.ctx
        sink := sliceOversizedLine e documentId maxSize (p.sliceContext s.ctx maxSize)
          (s.group.flush documentId (p.context s.ctx maxSize) s.sink) }
  | joined (hshort : p.IsShort maxSize e) (hopen : s.group.lines ≠ [])
      (hroom : ¬ s.Full p maxSize e) :
    LineStep s e
      { ctx := if p.adopts s.ctx = true then p.adopt s.ctx e.text else s.ctx
        group := { lines := s.group.lines ++ [e], size := s.group.size + (e.text.length + 1),
                   hasContext := s.group.hasContext || p.adopts s.ctx }
        sink := s.sink }
  | opened (hshort : p.IsShort maxSize e) (hfull : s.group.lines ≠ [] → s.Full p maxSize e) :
    LineStep s e
      { ctx := if p.adopts s.ctx = true then p.adopt s.ctx e.text else s.ctx
        group := { lines := [e], size := e.text.length + 1, hasContext := p.adopts s.ctx }
        sink := s.group.flush documentId (p.context s.ctx maxSize) s.sink }

/-- A group that has its context has the same chunk and the same cap under every context. -/
theorem LineGroup.content_of_hasContext {g : LineGroup} (h : g.hasContext = true)
    (context context' : List Char) : g.content context = g.content context' := by
  simp [LineGroup.content, h]

theorem LineGroup.packCap_of_hasContext {g : LineGroup} (h : g.hasContext = true)
    (context : List Char) (maxSize : Nat) : g.packCap context maxSize = maxSize := by
  simp [LineGroup.packCap, h]

/-- One round on a line that is not blank. -/
theorem LineState.line_step {s : LineState κ} {e : TextSpan} (hs : s.Sound p)
    (he : PyStr.strip e.text ≠ []) :
    LineStep p documentId maxSize s e (s.line p documentId maxSize e) := by
  unfold LineState.line
  rw [if_neg he]
  cases hnew : p.newSection e.text with
  | some ctx => exact .newSection ctx hnew
  | none =>
    simp only
    split
    · rename_i hlong
      unfold LineState.oversized
      split
      · rename_i horphan
        exact .merged ⟨⟨hnew, hlong⟩, horphan⟩
      · rename_i horphan
        exact .sliced ⟨hnew, hlong⟩ horphan
    · rename_i hlong
      have hshort : p.IsShort maxSize e := ⟨hnew, Nat.le_of_not_lt hlong⟩
      -- a line that is adopted does not change the chunk and the cap of the open group
      have hadopt : s.group.lines ≠ [] → ∀ ctx,
          s.group.hasContext = true ∨ ctx = s.ctx →
          s.group.packCap (p.context ctx maxSize) maxSize =
              s.group.packCap (p.context s.ctx maxSize) maxSize ∧
            s.group.flush documentId (p.context ctx maxSize) s.sink =
              s.group.flush documentId (p.context s.ctx maxSize) s.sink := by
        intro _ ctx hctx
        rcases hctx with hctx | rfl
        · simp only [LineGroup.packCap_of_hasContext hctx, LineGroup.flush,
            LineGroup.content_of_hasContext hctx (p.context ctx maxSize) (p.context s.ctx maxSize),
            and_self]
        · exact ⟨rfl, rfl⟩
      by_cases hopen : s.group.lines = []
      · -- the line opens a group
        have hfresh := hs.fresh hopen
        have h : LineStep p documentId maxSize s e _ := .opened hshort fun hne => absurd hopen hne
        unfold LineState.row
        simp only [hfresh, ne_eq, not_true_eq_false, false_and, if_false, List.nil_append,
          Nat.zero_add, Bool.false_or] at h ⊢
        exact h
      · have hctx : s.group.hasContext = true ∨
            (if p.adopts s.ctx = true then p.adopt s.ctx e.text else s.ctx) = s.ctx := by
          by_cases hadopts : p.adopts s.ctx = true
          · exact .inl (hs.adopts hopen hadopts)
          · exact .inr (if_neg hadopts)
        obtain ⟨hcap, hflush⟩ := hadopt hopen _ hctx
        unfold LineState.row
        simp only [hcap]
        by_cases hfull : s.Full p maxSize e
        · rw [if_pos ⟨hopen, hfull⟩]
          have h : LineStep p documentId maxSize s e _ := .opened hshort fun _ => hfull
          simp only [LineState.flush, hflush, List.nil_append, Nat.zero_add, Bool.false_or]
          exact h
        · rw [if_neg fun hif => hfull hif.2]
          exact .joined hshort hopen hfull

/-- The context behind a round. -/
theorem LineStep.ctx_eq {s s' : LineState κ} {e : TextSpan}
    (h : LineStep p documentId maxSize s e s') : s'.ctx = p.contextStep maxSize s.ctx e := by
  unfold LineChunker.contextStep
  cases h with
  | newSection ctx hnew => rw [hnew]
  | merged hmerges =>
    have hlen := hmerges.1.2
    rw [hmerges.1.1]
    simp only
    rw [if_neg fun hif => by omega]
  | sliced hlong =>
    have hlen := hlong.2
    rw [hlong.1]
    simp only
    rw [if_neg fun hif => by omega]
  | joined hshort => simp only [hshort.1, hshort.2, true_and]
  | opened hshort => simp only [hshort.1, hshort.2, true_and]

/-- What holds between two rounds. -/
theorem LineStep.sound {s s' : LineState κ} {e : TextSpan}
    (h : LineStep p documentId maxSize s e s') : s'.Sound p := by
  -- behind a line of normal size nothing more is adopted
  have hdone : ∀ ctx, p.adopts (if p.adopts ctx = true then p.adopt ctx e.text else ctx) ≠ true := by
    intro ctx
    split
    · rename_i hadopts
      simp [p.adopted ctx e.text hadopts]
    · rename_i hadopts
      exact hadopts
  cases h with
  | newSection ctx hnew => exact ⟨(nomatch ·), fun _ _ => rfl⟩
  | merged => exact ⟨fun _ => rfl, fun h => absurd rfl h⟩
  | sliced => exact ⟨fun _ => rfl, fun h => absurd rfl h⟩
  | joined => exact ⟨fun hnil => absurd hnil (by simp), fun _ hadopts => absurd hadopts (hdone s.ctx)⟩
  | opened => exact ⟨(nomatch ·), fun _ hadopts => absurd hadopts (hdone s.ctx)⟩

end Round

/-! ## The blocks of a run -/

section Run

variable {κ : Type} (p : LineChunker κ) (documentId : String) (maxSize : Nat) (init : κ)

/-- The loop over some lines. -/
def LineChunker.run (lines : List TextSpan) : LineState κ :=
  lines.foldl (LineState.line p documentId maxSize) { ctx := init }

/-- The context behind some lines. -/
def LineChunker.contextAfter (lines : List TextSpan) : κ :=
  lines.foldl (p.contextStep maxSize) init

theorem LineChunker.run_concat (lines : List TextSpan) (e : TextSpan) :
    p.run documentId maxSize init (lines ++ [e]) =
      (p.run documentId maxSize init lines).line p documentId maxSize e :=
  List.foldl_concat _ _ _ _

theorem LineState.sound_init : LineState.Sound p { ctx := init } :=
  ⟨fun _ => rfl, fun h => absurd rfl h⟩

/-- Blank lines do not matter. -/
theorem LineChunker.run_contentLines (text : List Char) :
    p.run documentId maxSize init (contentLines text) =
      (lineEntries text).foldl (LineState.line p documentId maxSize) { ctx := init } := by
  rw [LineChunker.run, contentLines, List.foldl_filter]
  congr 1
  funext s e
  by_cases he : PyStr.strip e.text = []
  · simp [LineState.line, he]
  · simp [he]

theorem LineChunker.chunks_eq (text : List Char) :
    p.chunks documentId maxSize init text =
      ((p.run documentId maxSize init (contentLines text)).flush p documentId maxSize).sink.chunks := by
  rw [p.run_contentLines, LineChunker.chunks]

/-- The state behind lines that are not blank. -/
theorem LineChunker.run_sound {lines : List TextSpan}
    (hlines : ∀ e ∈ lines, PyStr.strip e.text ≠ []) :
    (p.run documentId maxSize init lines).Sound p := by
  induction lines using List.reverseRecOn with
  | nil => exact LineState.sound_init p init
  | append_singleton lines e ih =>
    rw [p.run_concat]
    have hs := ih fun d hd => hlines d (List.mem_append_left _ hd)
    exact (LineState.line_step p documentId maxSize hs (hlines e (by simp))).sound

/-- The round on the next line. -/
theorem LineChunker.run_step {lines : List TextSpan} {e : TextSpan}
    (hlines : ∀ d ∈ lines ++ [e], PyStr.strip d.text ≠ []) :
    LineStep p documentId maxSize (p.run documentId maxSize init lines) e
      (p.run documentId maxSize init (lines ++ [e])) := by
  rw [p.run_concat]
  have hs := p.run_sound documentId maxSize init fun d hd => hlines d (List.mem_append_left [e] hd)
  exact LineState.line_step p documentId maxSize hs (hlines e (by simp))

/-- The context of a run does not depend on how the lines are packed. -/
theorem LineChunker.run_ctx {lines : List TextSpan}
    (hlines : ∀ e ∈ lines, PyStr.strip e.text ≠ []) :
    (p.run documentId maxSize init lines).ctx = p.contextAfter maxSize init lines := by
  induction lines using List.reverseRecOn with
  | nil => rfl
  | append_singleton lines e ih =>
    rw [(p.run_step documentId maxSize init hlines).ctx_eq, LineChunker.contextAfter, List.foldl_concat,
      ih fun d hd => hlines d (List.mem_append_left _ hd)]
    rfl

/-- The open group is made of the last lines. -/
theorem LineChunker.run_group_suffix {lines : List TextSpan}
    (hlines : ∀ e ∈ lines, PyStr.strip e.text ≠ []) :
    (p.run documentId maxSize init lines).group.lines <:+ lines := by
  induction lines using List.reverseRecOn with
  | nil => exact List.nil_suffix
  | append_singleton lines e ih =>
    have hstep := p.run_step documentId maxSize init hlines
    have hsuffix := ih fun d hd => hlines d (List.mem_append_left _ hd)
    generalize p.run documentId maxSize init (lines ++ [e]) = s' at hstep
    cases hstep with
    | newSection | opened => exact List.suffix_append _ _
    | merged | sliced => exact List.nil_suffix
    | joined =>
      obtain ⟨front, hfront⟩ := hsuffix
      exact ⟨front, by rw [← List.append_assoc, hfront]⟩

theorem LineChunker.strip_ne_nil_of_mem_group {lines : List TextSpan}
    (hlines : ∀ e ∈ lines, PyStr.strip e.text ≠ []) :
    ∀ e ∈ (p.run documentId maxSize init lines).group.lines, PyStr.strip e.text ≠ [] :=
  fun e he => hlines e ((p.run_group_suffix documentId maxSize init hlines).subset he)

/-- No line that is too long gets into a group. -/
theorem LineChunker.not_isLong_of_mem_group {lines : List TextSpan}
    (hlines : ∀ e ∈ lines, PyStr.strip e.text ≠ []) :
    ∀ e ∈ (p.run documentId maxSize init lines).group.lines, ¬ p.IsLong maxSize e := by
  induction lines using List.reverseRecOn with
  | nil => simp [LineChunker.run]
  | append_singleton lines e ih =>
    have hstep := p.run_step documentId maxSize init hlines
    have hgroup := ih fun d hd => hlines d (List.mem_append_left _ hd)
    generalize p.run documentId maxSize init (lines ++ [e]) = s' at hstep
    intro d hd hlong
    cases hstep with
    | newSection ctx hnew =>
      rw [List.mem_singleton.mp hd, LineChunker.IsLong, hnew] at hlong
      cases hlong.1
    | merged | sliced => cases hd
    | joined hshort =>
      rcases List.mem_append.mp hd with hd | hd
      · exact hgroup d hd hlong
      · rw [List.mem_singleton.mp hd] at hlong
        exact Nat.not_lt.mpr hshort.2 hlong.2
    | opened hshort =>
      rw [List.mem_singleton.mp hd] at hlong
      exact Nat.not_lt.mpr hshort.2 hlong.2

/-- A block and the place among the lines where it is closed: a group is closed where it is
    not merged into the next line, and a line is sliced with the group that is merged. -/
inductive LineBlock.ArisesIn (lines : List TextSpan) : LineBlock → Prop
  | packed (before after : List TextSpan) (hlines : lines = before ++ after)
      (hopen : (p.run documentId maxSize init before).group.lines ≠ [])
      (hkept : ∀ e ∈ after.head?, ¬ (p.run documentId maxSize init before).Merges p maxSize e) :
    ArisesIn lines
      (.packed (p.run documentId maxSize init before).group
        (p.context (p.contextAfter maxSize init before) maxSize))
  | sliced (before : List TextSpan) (e : TextSpan) (after : List TextSpan)
      (hlines : lines = before ++ e :: after) (hlong : p.IsLong maxSize e)
      (hkept : p.isOrphan (p.contextAfter maxSize init before)
        (p.run documentId maxSize init before).group ≠ true) :
    ArisesIn lines (.sliced [] e (p.sliceContext (p.contextAfter maxSize init before) maxSize))
  | merged (before : List TextSpan) (e : TextSpan) (after : List TextSpan)
      (hlines : lines = before ++ e :: after) (hlong : p.IsLong maxSize e)
      (horphan : p.isOrphan (p.contextAfter maxSize init before)
        (p.run documentId maxSize init before).group = true) :
    ArisesIn lines
      (.sliced (p.run documentId maxSize init before).group.lines e
        (p.sliceContext (p.contextAfter maxSize init before) maxSize))

variable {p documentId maxSize init}

/-- The block of the open group arises where the group is closed. -/
theorem LineBlock.arisesIn_closed {before after : List TextSpan}
    (hbefore : ∀ e ∈ before, PyStr.strip e.text ≠ [])
    (hkept : ∀ e ∈ after.head?, ¬ (p.run documentId maxSize init before).Merges p maxSize e) :
    ∀ b ∈ (p.run documentId maxSize init before).group.closed
        (p.context (p.run documentId maxSize init before).ctx maxSize),
      b.ArisesIn p documentId maxSize init (before ++ after) := by
  intro b hb
  unfold LineGroup.closed at hb
  split at hb
  · cases hb
  · rename_i hopen
    rw [List.mem_singleton.mp hb, p.run_ctx documentId maxSize init hbefore]
    exact .packed before after rfl hopen hkept

variable (p documentId maxSize init)

/-- The blocks that one round closes: with the group that is open behind it they are the
    group that was open and the line, and their chunks are added. -/
theorem exists_blocks_step {before : List TextSpan} {e : TextSpan} (rest : List TextSpan)
    (hlines : ∀ d ∈ before ++ [e], PyStr.strip d.text ≠ []) :
    ∃ blocks : List LineBlock,
      blocks.flatMap LineBlock.lines ++ (p.run documentId maxSize init (before ++ [e])).group.lines =
        (p.run documentId maxSize init before).group.lines ++ [e] ∧
      (∀ b ∈ blocks, b.ArisesIn p documentId maxSize init (before ++ e :: rest)) ∧
      ∀ parts, (p.run documentId maxSize init before).sink.Has parts →
        (p.run documentId maxSize init (before ++ [e])).sink.Has
          (parts ++ blocks.flatMap (LineBlock.parts maxSize)) := by
  have hbefore : ∀ d ∈ before, PyStr.strip d.text ≠ [] := fun d hd =>
    hlines d (List.mem_append_left _ hd)
  have hctx := p.run_ctx documentId maxSize init hbefore
  -- the block of the open group, where it is not merged
  obtain ⟨closed, hflat, harises, hhas⟩ : ∃ closed : List LineBlock,
      closed.flatMap LineBlock.lines = (p.run documentId maxSize init before).group.lines ∧
      (¬ (p.run documentId maxSize init before).Merges p maxSize e →
        ∀ b ∈ closed, b.ArisesIn p documentId maxSize init (before ++ e :: rest)) ∧
      ∀ parts, (p.run documentId maxSize init before).sink.Has parts →
        ((p.run documentId maxSize init before).group.flush documentId
          (p.context (p.run documentId maxSize init before).ctx maxSize)
          (p.run documentId maxSize init before).sink).Has
          (parts ++ closed.flatMap (LineBlock.parts maxSize)) := by
    refine ⟨_, LineGroup.flatMap_lines_closed _ _, ?_, fun _ hparts => hparts.flush _ _ _ _⟩
    intro hkept
    apply LineBlock.arisesIn_closed hbefore
    intro d hd
    rw [List.head?_cons, Option.mem_some_iff] at hd
    rwa [← hd]
  have hstep := p.run_step documentId maxSize init hlines
  generalize p.run documentId maxSize init (before ++ [e]) = s' at hstep
  cases hstep with
  | newSection ctx hnew =>
    refine ⟨closed, by rw [hflat], harises ?_, hhas⟩
    intro hmerges
    have hnone := hmerges.1.1
    rw [hnew] at hnone
    cases hnone
  | merged hmerges =>
    refine ⟨[.sliced (p.run documentId maxSize init before).group.lines e
      (p.sliceContext (p.run documentId maxSize init before).ctx maxSize)], ?_, ?_, ?_⟩
    · simp [LineBlock.lines]
    · intro b hb
      have horphan := hmerges.2
      rw [hctx] at hb horphan
      rw [List.mem_singleton.mp hb]
      exact .merged before e rest rfl hmerges.1 horphan
    · intro parts hparts
      rw [List.flatMap_singleton]
      exact hparts.slice _ _ _ _ _
  | sliced hlong hkept =>
    refine ⟨closed ++ [.sliced [] e
      (p.sliceContext (p.run documentId maxSize init before).ctx maxSize)], ?_, ?_, ?_⟩
    · rw [List.flatMap_append, hflat]
      simp [LineBlock.lines]
    · intro b hb
      rw [hctx] at hb hkept
      rcases List.mem_append.mp hb with hb | hb
      · exact harises (fun hmerges => hkept (hctx ▸ hmerges.2)) b hb
      · rw [List.mem_singleton.mp hb]
        exact .sliced before e rest rfl hlong hkept
    · intro parts hparts
      rw [List.flatMap_append, List.flatMap_singleton, ← List.append_assoc]
      exact (hhas parts hparts).slice _ _ _ _ _
  | joined hshort hopen hroom => exact ⟨[], rfl, nofun, fun parts hparts => by simpa using hparts⟩
  | opened hshort hfull =>
    refine ⟨closed, by rw [hflat], harises ?_, hhas⟩
    intro hmerges
    exact Nat.not_lt.mpr hshort.2 hmerges.1.2

/-- The blocks that the loop closes from some point on: they are the open group and the lines
    to come, and their chunks are added. -/
theorem exists_blocks_from (before rest : List TextSpan)
    (hlines : ∀ e ∈ before ++ rest, PyStr.strip e.text ≠ []) :
    ∃ blocks : List LineBlock,
      blocks.flatMap LineBlock.lines = (p.run documentId maxSize init before).group.lines ++ rest ∧
      (∀ b ∈ blocks, b.ArisesIn p documentId maxSize init (before ++ rest)) ∧
      ∀ parts, (p.run documentId maxSize init before).sink.Has parts →
        ((p.run documentId maxSize init (before ++ rest)).flush p documentId maxSize).sink.Has
          (parts ++ blocks.flatMap (LineBlock.parts maxSize)) := by
  induction rest generalizing before with
  | nil =>
    refine ⟨_, ?_, LineBlock.arisesIn_closed (by simpa using hlines) nofun, ?_⟩
    · rw [LineGroup.flatMap_lines_closed, List.append_nil]
    · intro parts hparts
      rw [List.append_nil]
      exact hparts.flush _ _ _ _
  | cons e rest ih =>
    have hassoc : before ++ [e] ++ rest = before ++ e :: rest := by simp
    rw [← hassoc] at hlines
    obtain ⟨closed, hflat, harises, hhas⟩ := exists_blocks_step p documentId maxSize init rest fun d hd => hlines d (List.mem_append_left _ hd)
    obtain ⟨blocks, hflat', harises', hhas'⟩ := ih (before ++ [e]) hlines
    rw [hassoc] at harises' hhas'
    refine ⟨closed ++ blocks, ?_, ?_, ?_⟩
    · rw [List.flatMap_append, hflat', ← List.append_assoc, hflat, List.append_assoc,
        List.singleton_append]
    · intro b hb
      exact (List.mem_append.mp hb).elim (harises b) (harises' b)
    · intro parts hparts
      rw [List.flatMap_append, ← List.append_assoc]
      exact hhas' _ (hhas parts hparts)

/-- The chunks of a text are those of the blocks, which are its lines in order. -/
structure LineChunker.IsBlocks (p : LineChunker κ) (documentId : String) (maxSize : Nat) (init : κ)
    (text : List Char) (blocks : List LineBlock) : Prop where
  lines : blocks.flatMap LineBlock.lines = contentLines text
  arises : ∀ b ∈ blocks, b.ArisesIn p documentId maxSize init (contentLines text)
  index : ∀ (k : Nat) (c : ChunkData), (p.chunks documentId maxSize init text)[k]? = some c →
    c.chunkIndex = k
  parts : (p.chunks documentId maxSize init text).map ChunkData.part =
    blocks.flatMap (LineBlock.parts maxSize)

theorem exists_isBlocks (p : LineChunker κ) (documentId : String) (maxSize : Nat) (init : κ)
    (text : List Char) : ∃ blocks, p.IsBlocks documentId maxSize init text blocks := by
  obtain ⟨blocks, hflat, harises, hhas⟩ := exists_blocks_from p documentId maxSize init []
    (contentLines text)
    fun e he => strip_ne_nil_of_mem_contentLines he
  have h := hhas [] ChunkSink.has_empty
  rw [List.nil_append] at h
  refine ⟨blocks, hflat, harises, ?_, ?_⟩
  · rw [p.chunks_eq]
    exact h.indexed.index
  · rw [p.chunks_eq, h.parts, List.nil_append]

variable {p documentId maxSize init}

/-- Every chunk is one of a block. -/
theorem LineChunker.IsBlocks.exists_of_mem {text : List Char} {blocks : List LineBlock}
    (h : p.IsBlocks documentId maxSize init text blocks) {c : ChunkData}
    (hc : c ∈ p.chunks documentId maxSize init text) :
    ∃ b ∈ blocks, c.part ∈ b.parts maxSize := by
  have hpart := List.mem_map_of_mem (f := ChunkData.part) hc
  rw [h.parts] at hpart
  exact List.mem_flatMap.mp hpart

/-- Every line is in a block. -/
theorem LineChunker.IsBlocks.exists_of_mem_lines {text : List Char} {blocks : List LineBlock}
    (h : p.IsBlocks documentId maxSize init text blocks) {e : TextSpan}
    (he : e ∈ contentLines text) : ∃ b ∈ blocks, e ∈ b.lines := by
  rw [← h.lines] at he
  exact List.mem_flatMap.mp he

/-- The chunks of one block stand next to each other. -/
theorem LineChunker.IsBlocks.exists_infix {text : List Char} {blocks : List LineBlock}
    (h : p.IsBlocks documentId maxSize init text blocks) {b : LineBlock} (hb : b ∈ blocks) :
    ∃ cs, cs <:+: p.chunks documentId maxSize init text ∧
      cs.map ChunkData.part = b.parts maxSize := by
  have hparts := h.parts
  obtain ⟨before, after, rfl⟩ := List.mem_iff_append.mp hb
  rw [List.flatMap_append, List.flatMap_cons] at hparts
  obtain ⟨front, rest, hchunks, -, hrest⟩ := List.map_eq_append_iff.mp hparts
  obtain ⟨cs, back, rfl, hcs, -⟩ := List.map_eq_append_iff.mp hrest
  exact ⟨cs, ⟨front, back, by rw [hchunks, List.append_assoc]⟩, hcs⟩

end Run

end Inherent
