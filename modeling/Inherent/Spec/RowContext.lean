import Inherent.Spec.LineSpans

/-!
# The context of the chunks of rows

A chunk of `_chunk_by_rows` has lines of one sheet only.  Where it starts behind the header
row of its sheet, its content starts with the heading of the sheet and the header row, each
bounded; where it starts with the heading, it has the heading and the header row as its
first lines.  The slices of an oversized row share what is left of the context when it is
cut to the room that a slice leaves.
-/

namespace Inherent

/-! ## Sheets -/

/-- The line starts a sheet. -/
def isSheetHeading (e : TextSpan) : Bool := PyStr.startsWith e.text sheetHeadingPrefix

/-- The lines behind the last heading. -/
def currentSheet (lines : List TextSpan) : List TextSpan :=
  (lines.reverse.takeWhile fun e => !isSheetHeading e).reverse

/-- The heading of the current sheet, and its header row: the first line of normal size. -/
def sheetContext (maxSize : Nat) (lines : List TextSpan) : RowContext where
  sheetHeading := (lines.reverse.find? isSheetHeading).map fun e => sheetHeadingOf e.text
  headerRow := ((currentSheet lines).find? fun e => e.text.length ≤ maxSize).map TextSpan.text

/-- The loop tracks the heading and the header row of the current sheet. -/
theorem contextAfter_rowChunker (maxSize : Nat) (lines : List TextSpan) :
    rowChunker.contextAfter maxSize {} lines = sheetContext maxSize lines := by
  induction lines using List.reverseRecOn with
  | nil => rfl
  | append_singleton lines e ih =>
    rw [LineChunker.contextAfter, List.foldl_concat, ← LineChunker.contextAfter, ih]
    unfold LineChunker.contextStep
    by_cases hnew : isSheetHeading e = true
    · have h : rowChunker.newSection e.text =
          some { sheetHeading := some (sheetHeadingOf e.text), headerRow := none } := if_pos hnew
      simp [h, sheetContext, currentSheet, hnew]
    · have h : rowChunker.newSection e.text = none := if_neg hnew
      have hsheet : currentSheet (lines ++ [e]) = currentSheet lines ++ [e] := by
        simp [currentSheet, hnew]
      have hheading : (sheetContext maxSize (lines ++ [e])).sheetHeading =
          (sheetContext maxSize lines).sheetHeading := by
        simp [sheetContext, hnew]
      -- the line is the header row where the sheet has none before it
      have hrow : (sheetContext maxSize (lines ++ [e])).headerRow =
          ((sheetContext maxSize lines).headerRow.or
            (if e.text.length ≤ maxSize then some e.text else none)) := by
        simp only [sheetContext, hsheet, List.find?_append, Option.map_or, List.find?_singleton,
          decide_eq_true_eq]
        split <;> rfl
      rw [h]
      have hctx : sheetContext maxSize (lines ++ [e]) =
          { sheetHeading := (sheetContext maxSize lines).sheetHeading
            headerRow := (sheetContext maxSize lines).headerRow.or
              (if e.text.length ≤ maxSize then some e.text else none) } := by
        rw [← hheading, ← hrow]
      rw [hctx]
      generalize sheetContext maxSize lines = ctx
      obtain ⟨heading, row⟩ := ctx
      by_cases hlen : e.text.length ≤ maxSize <;> cases row <;> simp [rowChunker, hlen]

/-! ## Whole rows and slices -/

/-- The chunk has the lines `own`, which are rows of one sheet in a row; what its content
    starts with depends on the first of them. -/
structure ChunkData.HasRows (text : List Char) (maxSize : Nat) (c : ChunkData)
    (before own after : List TextSpan) : Prop where
  lines : contentLines text = before ++ own ++ after
  ne_nil : own ≠ []
  start : c.startChar = (own.head?.map TextSpan.start).getD 0
  stop : c.endChar = (own.getLast?.map TextSpan.stop).getD 0
  sheet : ∀ e ∈ own.tail, isSheetHeading e = false ∧ e.text.length ≤ maxSize
  heading : ∀ first rest, own = first :: rest → isSheetHeading first = true →
    c.content = PyStr.rstrip (PyStr.join ['\n'] (own.map TextSpan.text)) ∧
      (sheetContext maxSize (before ++ own)).headerRow = rest.head?.map TextSpan.text
  headerRow : ∀ first rest, own = first :: rest → isSheetHeading first = false →
    sheetContext maxSize before = {} →
    c.content = PyStr.strip (PyStr.join ['\n'] (own.map TextSpan.text))
  body : ∀ first rest, own = first :: rest → isSheetHeading first = false →
    (sheetContext maxSize before).headerRow ≠ none →
    c.content = PyStr.lstrip ((sheetContext maxSize before).context maxSize) ++ contextSep ++
      PyStr.rstrip (PyStr.join ['\n'] (own.map TextSpan.text))

/-- The chunk is a slice of a row that is too long, behind the context of its sheet. -/
structure ChunkData.IsRowSlice (text : List Char) (maxSize : Nat) (c : ChunkData)
    (before : List TextSpan) (e : TextSpan) (after : List TextSpan) : Prop where
  lines : contentLines text = before ++ e :: after
  sheet : isSheetHeading e = false
  long : maxSize < e.text.length
  start : e.start ≤ c.startChar
  stop : c.endChar ≤ e.stop
  content : c.content =
    PyStr.strip (sliceBlock ((sheetContext maxSize before).context maxSize) maxSize ++
      PyStr.slice text c.startChar c.endChar)

/-! ## The group behind some lines -/

section Group

variable {κ : Type} {p : LineChunker κ} {documentId : String} {maxSize : Nat} {init : κ}

/-- The open group: its first line opened it, and has brought it its context or not; the
    lines behind it are of normal size and change nothing of a context that is put before
    the group. -/
structure LineState.OpenedBy (p : LineChunker κ) (maxSize : Nat) (init : κ) (s : LineState κ)
    (front : List TextSpan) (first : TextSpan) (rest : List TextSpan) : Prop where
  lines : s.group.lines = first :: rest
  short : ∀ e ∈ rest, p.IsShort maxSize e
  opener : p.newSection first.text ≠ none ∨ p.IsShort maxSize first
  hasContext : s.group.hasContext =
    ((p.newSection first.text).isSome || p.adopts (p.contextAfter maxSize init front))
  ctx : s.group.hasContext = false → s.ctx = p.contextAfter maxSize init front

variable (p documentId maxSize init) in
/-- An open group was opened by its first line. -/
theorem LineChunker.exists_openedBy {lines : List TextSpan}
    (hlines : ∀ e ∈ lines, PyStr.strip e.text ≠ [])
    (hopen : (p.run documentId maxSize init lines).group.lines ≠ []) :
    ∃ front first rest, lines = front ++ first :: rest ∧
      (p.run documentId maxSize init lines).OpenedBy p maxSize init front first rest := by
  induction lines using List.reverseRecOn with
  | nil => exact absurd rfl hopen
  | append_singleton lines e ih =>
    have hbefore : ∀ d ∈ lines, PyStr.strip d.text ≠ [] := fun d hd =>
      hlines d (List.mem_append_left _ hd)
    have hstep := p.run_step documentId maxSize init hlines
    have hsound := p.run_sound documentId maxSize init hbefore
    have hctx := p.run_ctx documentId maxSize init hbefore
    generalize p.run documentId maxSize init (lines ++ [e]) = s' at hstep hopen
    cases hstep with
    | newSection ctx hnew =>
      refine ⟨lines, e, [], rfl, rfl, nofun, .inl (by simp [hnew]), ?_, nofun⟩
      simp [hnew]
    | merged | sliced => exact absurd rfl hopen
    | joined hshort hopen' hroom =>
      obtain ⟨front, first, rest, hsplit, h⟩ := ih hbefore hopen'
      -- where a line is adopted the group has its context already
      have hkeep : ((p.run documentId maxSize init lines).group.hasContext ||
          p.adopts (p.run documentId maxSize init lines).ctx) =
          (p.run documentId maxSize init lines).group.hasContext := by
        by_cases hadopts : p.adopts (p.run documentId maxSize init lines).ctx = true
        · simp [hsound.adopts hopen' hadopts]
        · simp [hadopts]
      refine ⟨front, first, rest ++ [e], by simp [hsplit], ?_, ?_, h.opener, ?_, ?_⟩
      · simp [h.lines]
      · intro d hd
        rcases List.mem_append.mp hd with hd | hd
        · exact h.short d hd
        · rwa [List.mem_singleton.mp hd]
      · exact hkeep.trans h.hasContext
      · intro hnone
        obtain ⟨hnot, hadopts⟩ := Bool.or_eq_false_iff.mp hnone
        simp only [hadopts]
        exact h.ctx hnot
    | opened hshort hfull =>
      refine ⟨lines, e, [], rfl, rfl, nofun, .inr hshort, ?_, ?_⟩
      · simp [hshort.1, hctx]
      · intro hadopts
        have hnot : p.adopts (p.run documentId maxSize init lines).ctx = false := hadopts
        simp only [hnot]
        exact hctx

end Group

/-! ## The chunks of rows -/

theorem newSection_rowChunker_eq_none_iff {e : TextSpan} :
    rowChunker.newSection e.text = none ↔ isSheetHeading e = false := by
  by_cases h : isSheetHeading e = true
  · have hsome : rowChunker.newSection e.text =
        some { sheetHeading := some (sheetHeadingOf e.text), headerRow := none } := if_pos h
    simp [hsome, h]
  · have hnone : rowChunker.newSection e.text = none := if_neg h
    simp [hnone, h]

/-- The heading in front of lines of normal size, and the first of these as the header row. -/
theorem headerRow_sheetContext {maxSize : Nat} (front : List TextSpan) {first : TextSpan}
    {rest : List TextSpan} (hfirst : isSheetHeading first = true)
    (hrest : ∀ e ∈ rest, isSheetHeading e = false ∧ e.text.length ≤ maxSize) :
    (sheetContext maxSize (front ++ first :: rest)).headerRow = rest.head?.map TextSpan.text := by
  have hsheet : currentSheet (front ++ first :: rest) = rest := by
    unfold currentSheet
    rw [List.reverse_append, List.reverse_cons, List.append_assoc,
      List.takeWhile_append_of_pos]
    · simp [hfirst]
    · intro e he
      simp [(hrest e (List.mem_reverse.mp he)).1]
  rw [sheetContext, hsheet]
  cases rest with
  | nil => rfl
  | cons e rest => simp [(hrest e List.mem_cons_self).2]

/-- What is bounded is not blank if the text is not. -/
theorem not_blank_boundedContext {text : List Char} (h : ¬ PyStr.Blank text) (maxSize : Nat) :
    ¬ PyStr.Blank (boundedContext text maxSize) := by
  unfold boundedContext
  split
  · exact h
  · intro hblank
    have := hblank '.' (by simp)
    exact absurd this (by decide)

/-- The context of a sheet with a header row is not blank. -/
theorem not_blank_context {lines : List TextSpan} (hlines : ∀ e ∈ lines, PyStr.strip e.text ≠ [])
    {maxSize : Nat} (hrow : (sheetContext maxSize lines).headerRow ≠ none) :
    ¬ PyStr.Blank ((sheetContext maxSize lines).context maxSize) := by
  obtain ⟨row, hrow⟩ := Option.ne_none_iff_exists'.mp hrow
  obtain ⟨e, he, rfl⟩ := Option.map_eq_some_iff.mp hrow
  have hmem : e ∈ lines := by
    have := (List.takeWhile_sublist _).subset (List.mem_reverse.mp (List.mem_of_find?_eq_some he))
    exact List.mem_reverse.mp this
  have hne := hlines e hmem
  have hpart : e.text ∈ (sheetContext maxSize lines).parts := by
    simp only [RowContext.parts, hrow, Option.toList_some, List.mem_filter, List.mem_append,
      List.mem_singleton, or_true, true_and, ne_eq, decide_not, Bool.not_eq_true',
      decide_eq_false_iff_not]
    exact text_ne_nil_of_strip hne
  rw [ne_eq, PyStr.strip_eq_nil_iff] at hne
  rw [← PyStr.strip_eq_nil_iff]
  apply PyStr.strip_join_ne_nil (List.mem_map_of_mem hpart)
  rw [ne_eq, PyStr.strip_eq_nil_iff]
  exact not_blank_boundedContext hne maxSize

/-- Joined lines are not blank if the first of them is not. -/
theorem not_blank_join {first : TextSpan} {rest : List TextSpan}
    (h : PyStr.strip first.text ≠ []) :
    ¬ PyStr.Blank (PyStr.join ['\n'] ((first :: rest).map TextSpan.text)) := by
  rw [← PyStr.strip_eq_nil_iff]
  exact PyStr.strip_join_ne_nil (List.mem_map_of_mem List.mem_cons_self) h

/-- Lines that start with a heading start with more than whitespace. -/
theorem lstrip_join_of_heading {first : TextSpan} {rest : List TextSpan}
    (h : isSheetHeading first = true) :
    PyStr.lstrip (PyStr.join ['\n'] ((first :: rest).map TextSpan.text)) =
      PyStr.join ['\n'] ((first :: rest).map TextSpan.text) := by
  obtain ⟨tail, htail⟩ := List.isPrefixOf_iff_prefix.mp h
  have hcons : ∃ more, PyStr.join ['\n'] ((first :: rest).map TextSpan.text) = '#' :: more := by
    cases rest with
    | nil =>
      rw [List.map_singleton, PyStr.join_singleton, ← htail]
      exact ⟨_, rfl⟩
    | cons e rest =>
      rw [List.map_cons, List.map_cons, PyStr.join_cons_cons, ← htail]
      exact ⟨_, rfl⟩
  obtain ⟨more, hmore⟩ := hcons
  rw [hmore, PyStr.lstrip_cons_of_not_space (by decide)]

/-- The chunk of a group of rows. -/
theorem hasRows_of_packed {text : List Char} {documentId : String} {maxSize : Nat}
    {before after : List TextSpan} (hlines : contentLines text = before ++ after)
    (hopen : (rowChunker.run documentId maxSize {} before).group.lines ≠ []) {c : ChunkData}
    (hc : c.part ∈ (LineBlock.packed (rowChunker.run documentId maxSize {} before).group
      (rowChunker.context (rowChunker.contextAfter maxSize {} before) maxSize)).parts maxSize) :
    ∃ front own, c.HasRows text maxSize front own after := by
  have hne := strip_ne_nil_of_append hlines
  obtain ⟨front, first, rest, rfl, h⟩ := rowChunker.exists_openedBy documentId maxSize {} hne hopen
  rw [LineBlock.parts, List.mem_singleton] at hc
  simp only [ChunkData.part, TextSpan.mk.injEq, h.lines] at hc
  obtain ⟨hcontent, hstart, hstop⟩ := hc
  have hrest : ∀ e ∈ rest, isSheetHeading e = false ∧ e.text.length ≤ maxSize := fun e he =>
    ⟨newSection_rowChunker_eq_none_iff.mp (h.short e he).1, (h.short e he).2⟩
  have hfront : ∀ e ∈ front, PyStr.strip e.text ≠ [] := fun e he =>
    hne e (List.mem_append_left _ he)
  have hfirst : PyStr.strip first.text ≠ [] := hne first (by simp)
  have hhas := h.hasContext
  rw [contextAfter_rowChunker] at hhas
  refine ⟨front, first :: rest, by rw [hlines], by simp, hstart, hstop, hrest, ?_, ?_, ?_⟩
  · intro first' rest' hown hheading
    obtain ⟨rfl, rfl⟩ := List.cons.inj hown
    have hsome : (rowChunker.newSection first.text).isSome = true := by
      rw [Option.isSome_iff_ne_none]
      intro hnone
      rw [newSection_rowChunker_eq_none_iff, hheading] at hnone
      cases hnone
    rw [hsome, Bool.true_or] at hhas
    refine ⟨?_, headerRow_sheetContext front hheading hrest⟩
    rw [hcontent, LineGroup.content, if_pos (.inr hhas), h.lines, PyStr.strip_eq_rstrip_lstrip,
      lstrip_join_of_heading hheading]
  · intro first' rest' hown hheading hctx
    have hadopts : rowChunker.adopts (sheetContext maxSize front) = true := by rw [hctx]; rfl
    rw [hadopts, Bool.or_true] at hhas
    rw [hcontent, LineGroup.content, if_pos (.inr hhas), h.lines]
  · intro first' rest' hown hheading hrow
    obtain ⟨rfl, rfl⟩ := List.cons.inj hown
    -- the header row is in the context, which is put before the rows
    have hnone := newSection_rowChunker_eq_none_iff.mpr hheading
    have hadopts : rowChunker.adopts (sheetContext maxSize front) = false := by
      simpa [rowChunker, Option.isNone_eq_false_iff, Option.isSome_iff_ne_none] using hrow
    rw [hnone, hadopts] at hhas
    have hctx := h.ctx hhas
    rw [rowChunker.run_ctx documentId maxSize {} hne, contextAfter_rowChunker, contextAfter_rowChunker] at hctx
    have hblank : ¬ PyStr.Blank (rowChunker.context (sheetContext maxSize front) maxSize) :=
      not_blank_context hfront hrow
    have hctxne : rowChunker.context (sheetContext maxSize front) maxSize ≠ [] := by
      intro hnil
      rw [hnil] at hblank
      exact hblank PyStr.blank_nil
    rw [hcontent, contextAfter_rowChunker, hctx, LineGroup.content, if_neg (by simp [hhas, hctxne]),
      h.lines]
    exact PyStr.strip_append_append _ hblank (not_blank_join hfirst)

/-- The slices of a row that is too long. -/
theorem isRowSlice_of_sliced {text : List Char} {maxSize : Nat}
    {before after : List TextSpan} {e : TextSpan} (hlines : contentLines text = before ++ e :: after)
    (hlong : rowChunker.IsLong maxSize e) {merged : List TextSpan} {c : ChunkData}
    (hc : c.part ∈ (LineBlock.sliced merged e
      (rowChunker.sliceContext (rowChunker.contextAfter maxSize {} before) maxSize)).parts maxSize) :
    c.IsRowSlice text maxSize before e after := by
  have he : e ∈ contentLines text := by simp [hlines]
  have hstop := ((contentLines_inOrder text).stop_eq he).1
  obtain ⟨s, hs, hsc⟩ := List.mem_map.mp hc
  have hbounds := (tiles_sliceSteps _ _ _).bounds hs
  simp only [ChunkData.part, TextSpan.mk.injEq] at hsc
  obtain ⟨hcontent, hstart, hend⟩ := hsc
  refine ⟨hlines, newSection_rowChunker_eq_none_iff.mp hlong.1, hlong.2, by omega, by omega, ?_⟩
  rw [← hcontent, ← hstart, ← hend, slice_line he hbounds.2.2, contextAfter_rowChunker]
  rfl

/-- Every chunk of `_chunk_by_rows` has rows of one sheet behind their context, or is a slice
    of one row. -/
theorem chunkByRows_context (text : List Char) (documentId : String) (maxSize : Nat) :
    ∀ c ∈ chunkByRows text documentId maxSize,
      (∃ before own after, c.HasRows text maxSize before own after) ∨
        ∃ before e after, c.IsRowSlice text maxSize before e after := by
  intro c hc
  obtain ⟨blocks, hblocks⟩ := exists_isBlocks rowChunker documentId maxSize {} text
  obtain ⟨b, hb, hq⟩ := hblocks.exists_of_mem hc
  cases hblocks.arises b hb with
  | packed before after hlines hopen =>
    obtain ⟨front, own, h⟩ := hasRows_of_packed hlines hopen hq
    exact .inl ⟨front, own, after, h⟩
  | sliced before e after hlines hlong | merged before e after hlines hlong =>
    exact .inr ⟨before, e, after, isRowSlice_of_sliced hlines hlong hq⟩

/-- The second chunk of a table in two parts. -/
theorem chunkByRows_context_table :
    let text := "name,total\nrow1,5555\nrow2,6666".toList
    let c : ChunkData :=
      { documentId := "doc", content := "name,total\n\nrow2,6666".toList, chunkIndex := 2,
        startChar := 21, endChar := 30 }
    c ∈ chunkByRows text "doc" 10 ∧
      ((∃ before own after, c.HasRows text 10 before own after) ∨
        ∃ before e after, c.IsRowSlice text 10 before e after) := by
  intro text c
  have hc : c ∈ chunkByRows text "doc" 10 := by decide
  exact ⟨hc, chunkByRows_context text "doc" 10 c hc⟩

/-- The content starts with the parts of the context, each as it is or bounded. -/
def RowContext.Starts (ctx : RowContext) (maxSize : Nat) (content : List Char) : Prop :=
  ∃ parts, List.Forall₂ (fun t part => part = t ∨ part = boundedContext t maxSize) ctx.parts parts ∧
    PyStr.join ['\n'] parts <+: content

/-- Every chunk has lines of one sheet, and starts with the heading and the header row of the
    sheet where the line has them before it. -/
structure KeepsRowContext (text : List Char) (maxSize : Nat) (chunks : List ChunkData) : Prop where
  oneSheet : ∀ c ∈ chunks, ∀ before d between e after,
    contentLines text = before ++ d :: between ++ e :: after → c.Touches d → c.Touches e →
    ∀ f ∈ between ++ [e], isSheetHeading f = false
  starts : ∀ c ∈ chunks, ∀ before e after, contentLines text = before ++ e :: after →
    c.Touches e → isSheetHeading e = false →
    (sheetContext maxSize before).Starts maxSize c.content

/-- The slices of an oversized row have no room for the whole heading. -/
theorem chunkByRows_context_cut :
    ¬ KeepsRowContext "## Sheet:A\nx\nabcdefghijklmnop\ny".toList 12
      (chunkByRows "## Sheet:A\nx\nabcdefghijklmnop\ny".toList "doc" 12) := by
  intro h
  have hslice := h.starts
    { documentId := "doc", content := "## Sheet\n\nab".toList, chunkIndex := 0,
      startChar := 13, endChar := 15 } (by decide)
    [{ text := "## Sheet:A".toList, start := 0, stop := 10 },
     { text := "x".toList, start := 11, stop := 12 }]
    { text := "abcdefghijklmnop".toList, start := 13, stop := 29 }
    [{ text := "y".toList, start := 30, stop := 31 }] (by decide) ⟨by decide, by decide⟩ (by decide)
  obtain ⟨parts, hparts, hprefix⟩ := hslice
  have hctx : (sheetContext 12 [{ text := "## Sheet:A".toList, start := 0, stop := 10 },
      { text := "x".toList, start := 11, stop := 12 }]).parts =
      ["## Sheet:A".toList, "x".toList] := by
    decide
  have hbounded : ∀ t ∈ ["## Sheet:A".toList, "x".toList], boundedContext t 12 = t := by decide
  rw [hctx] at hparts
  -- neither part is bounded, and the heading is cut
  cases hparts with
  | cons hheading hrest =>
    cases hrest with
    | cons hrow hnil =>
      cases hnil
      rw [hbounded _ (by simp), or_self] at hheading hrow
      rw [hheading, hrow] at hprefix
      revert hprefix
      decide

end Inherent
