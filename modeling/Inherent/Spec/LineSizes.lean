import Inherent.Spec.CharacterSplit
import Inherent.Spec.LineBlocks

/-!
# The size of the chunks of lines

The slices of an oversized line never get longer than `max_size` with their context, and a
line joins an open group only where the chunk stays within `max_size` with the context that
will be put before it.  The line that opens a group is not checked: a chunk is longer than
`max_size` just where a group is opened by a line that does not fit behind its context, or
by a heading that is too long itself.
-/

namespace Inherent

/-! ## Slices -/

/-- The context before a slice and the budget fit together. -/
theorem length_sliceBlock_add (context : List Char) {maxSize : Nat} (hmax : 1 ≤ maxSize) :
    (sliceBlock context maxSize).length + sliceBudget context maxSize ≤ maxSize := by
  have hfloor : sliceFloor maxSize ≤ maxSize := by
    unfold sliceFloor
    omega
  have hfit : (sliceBlock context maxSize).length = 0 ∨
      sliceFloor maxSize + (sliceBlock context maxSize).length ≤ maxSize := by
    unfold sliceBlock
    dsimp only
    generalize (if context = [] then [] else boundedContext context maxSize ++ contextSep) = block
    split
    · -- the context is cut to what the floor leaves
      split
      · exact .inl rfl
      · rename_i hne
        have hlen : 0 < (context.take (maxSize - sliceFloor maxSize - 2)).length :=
          List.length_pos_iff.mpr hne
        rw [List.length_append, List.length_take, contextSep]
        rw [List.length_take] at hlen
        simp only [List.length_cons, List.length_nil]
        omega
    · rename_i hblock
      exact .inr (Nat.le_of_not_lt hblock)
  unfold sliceBudget
  omega

/-- No slice is longer than `max_size`. -/
theorem length_part_sliced {maxSize : Nat} (hmax : 1 ≤ maxSize) {merged : List TextSpan}
    {line : TextSpan} {context : List Char} {q : TextSpan}
    (hq : q ∈ (LineBlock.sliced merged line context).parts maxSize) : q.text.length ≤ maxSize := by
  obtain ⟨s, hs, rfl⟩ := List.mem_map.mp hq
  have hstep := Tiling.length_of_mem_steps hs
  have hblock := length_sliceBlock_add context hmax
  have hbounds := (tiles_sliceSteps context maxSize line).bounds hs
  have hslice : (PyStr.slice line.text s.1 s.2).length = s.2 - s.1 :=
    PyStr.length_slice hbounds.2.2
  have hstrip := PyStr.length_strip_le
    (sliceBlock context maxSize ++ PyStr.slice line.text s.1 s.2)
  rw [List.length_append, hslice] at hstrip
  simp only
  omega

/-! ## Groups -/

/-- The length of the lines of a group, joined. -/
def LineGroup.joined (g : LineGroup) : Nat :=
  (PyStr.join ['\n'] (g.lines.map TextSpan.text)).length

theorem LineGroup.length_content (g : LineGroup) (context : List Char) :
    (g.content context).length =
      if g.hasContext = true ∨ context = [] then g.joined else context.length + 2 + g.joined := by
  unfold LineGroup.content LineGroup.joined
  by_cases hif : g.hasContext = true ∨ context = []
  · rw [if_pos hif.symm, if_pos hif]
  · rw [if_neg (mt Or.symm hif), if_neg hif]
    simp [contextSep]
    omega

/-- A line is joined to the group with its separator. -/
theorem length_join_concat {texts : List (List Char)} (hne : texts ≠ []) (text : List Char) :
    (PyStr.join ['\n'] (texts ++ [text])).length =
      (PyStr.join ['\n'] texts).length + (text.length + 1) := by
  rw [PyStr.join_concat hne]
  simp only [List.length_append, List.length_singleton]
  omega

/-- No line of a group is longer than the group. -/
theorem length_le_joined {g : LineGroup} {e : TextSpan} (he : e ∈ g.lines) :
    e.text.length ≤ g.joined := by
  obtain ⟨before, after, hlines⟩ := List.mem_iff_append.mp he
  have hjoin : ∀ (as bs : List (List Char)) (t : List Char),
      t.length ≤ (PyStr.join ['\n'] (as ++ t :: bs)).length := by
    intro as bs t
    induction as with
    | nil => cases bs <;> simp
    | cons a as ih =>
      cases as with
      | nil =>
        have := ih
        simp only [List.cons_append, List.nil_append, PyStr.join_cons_cons, List.length_append]
          at this ⊢
        omega
      | cons b as =>
        simp only [List.cons_append, PyStr.join_cons_cons, List.length_append] at ih ⊢
        omega
  unfold LineGroup.joined
  rw [hlines, List.map_append, List.map_cons]
  exact hjoin _ _ _

section Sizes

variable {κ : Type} {p : LineChunker κ} {documentId : String} {maxSize : Nat} {init : κ}

/-- `group_size` counts the lines of the group, and a separator more at most; a group of more
    than one line is within its cap. -/
structure LineState.Sized (p : LineChunker κ) (maxSize : Nat) (s : LineState κ) : Prop where
  le_size : s.group.lines ≠ [] → s.group.joined ≤ s.group.size
  size_le : s.group.size ≤ s.group.joined + 1
  within : 2 ≤ s.group.lines.length →
    s.group.size ≤ s.group.packCap (p.context s.ctx maxSize) maxSize

/-- A round keeps the count. -/
theorem LineStep.sized {s s' : LineState κ} {e : TextSpan}
    (h : LineStep p documentId maxSize s e s') (hs : s.Sound p) (hsize : s.Sized p maxSize) :
    s'.Sized p maxSize := by
  have hone : ∀ d : TextSpan, (PyStr.join ['\n'] [d.text]).length = d.text.length := by simp
  cases h with
  | newSection ctx hnew =>
    refine ⟨fun _ => ?_, ?_, fun htwo => absurd htwo (by simp)⟩
    · exact Nat.le_of_eq (hone e)
    · exact Nat.le_succ_of_le (Nat.le_of_eq (hone e).symm)
  | merged => exact ⟨fun h => absurd rfl h, Nat.zero_le _, fun htwo => absurd htwo (by simp)⟩
  | sliced => exact ⟨fun h => absurd rfl h, Nat.zero_le _, fun htwo => absurd htwo (by simp)⟩
  | joined hshort hopen hroom =>
    have hne : s.group.lines.map TextSpan.text ≠ [] := by simpa
    have hjoin := length_join_concat hne e.text
    have hle := hsize.le_size hopen
    have hge := hsize.size_le
    unfold LineGroup.joined at hle hge
    refine ⟨fun _ => ?_, ?_, fun _ => ?_⟩
    · simp only [LineGroup.joined, List.map_append, List.map_cons, List.map_nil, hjoin]
      omega
    · simp only [LineGroup.joined, List.map_append, List.map_cons, List.map_nil, hjoin]
      omega
    · -- where the line is adopted the group has its context already
      have hcap := Nat.le_of_not_lt hroom
      by_cases hadopts : p.adopts s.ctx = true
      · rw [LineGroup.packCap_of_hasContext (hs.adopts hopen hadopts)] at hcap
        rw [LineGroup.packCap_of_hasContext (by simp [hadopts])]
        exact hcap
      · simp only [hadopts, Bool.or_false]
        exact hcap
  | opened hshort hfull =>
    refine ⟨fun _ => ?_, ?_, fun htwo => absurd htwo (by simp)⟩
    · exact Nat.le_succ_of_le (Nat.le_of_eq (hone e))
    · exact Nat.succ_le_succ (Nat.le_of_eq (hone e).symm)

variable (p documentId maxSize init) in
/-- The count of the open group behind some lines. -/
theorem LineChunker.run_sized {lines : List TextSpan}
    (hlines : ∀ e ∈ lines, PyStr.strip e.text ≠ []) :
    (p.run documentId maxSize init lines).Sized p maxSize := by
  induction lines using List.reverseRecOn with
  | nil => exact ⟨fun h => absurd rfl h, Nat.zero_le _, fun htwo => absurd htwo (by simp [LineChunker.run])⟩
  | append_singleton lines e ih =>
    have hbefore := fun d hd => hlines d (List.mem_append_left [e] hd)
    exact (p.run_step documentId maxSize init hlines).sized (p.run_sound documentId maxSize init hbefore) (ih hbefore)

/-- A group of more than one line fits with its context. -/
theorem LineState.Sized.length_content_le {s : LineState κ} (hsize : s.Sized p maxSize)
    (htwo : 2 ≤ s.group.lines.length) (hne : ∀ e ∈ s.group.lines, PyStr.strip e.text ≠ []) :
    (s.group.content (p.context s.ctx maxSize)).length ≤ maxSize := by
  have hle := hsize.le_size (List.ne_nil_of_length_pos (by omega))
  have hwithin := hsize.within htwo
  rw [LineGroup.length_content]
  unfold LineGroup.packCap at hwithin
  split at hwithin
  · rename_i hif
    rw [if_pos hif]
    omega
  · rename_i hif
    rw [if_neg hif]
    -- two lines and their separator are longer than the least cap
    have hlong : 2 ≤ s.group.joined := by
      unfold LineGroup.joined
      match hlines : s.group.lines, htwo with
      | d :: e :: _, _ =>
        have hd := List.length_pos_iff.mpr (text_ne_nil_of_strip (hne d (by simp [hlines])))
        simp only [List.map_cons, PyStr.join_cons_cons, List.length_append, List.length_singleton]
        omega
    omega

/-- A group that does not fit with its context has no room for another line. -/
theorem LineState.Sized.full {s : LineState κ} (hsize : s.Sized p maxSize)
    (hopen : s.group.lines ≠ [])
    (hlong : maxSize < (s.group.content (p.context s.ctx maxSize)).length) {e : TextSpan}
    (he : PyStr.strip e.text ≠ []) : s.Full p maxSize e := by
  have hle := hsize.le_size hopen
  rw [LineGroup.length_content] at hlong
  unfold LineState.Full LineGroup.packCap
  split
  · rename_i hif
    rw [if_pos hif] at hlong
    omega
  · rename_i hif
    rw [if_neg hif] at hlong
    have hpos : 0 < e.text.length := List.length_pos_iff.mpr (text_ne_nil_of_strip he)
    omega

end Sizes

/-! ## The line that opens a group -/

section Openings

variable {κ : Type} (p : LineChunker κ) (documentId : String) (maxSize : Nat) (init : κ)

/-- The line opens a group: it starts a section, or it has no room in the open group. -/
def LineState.Opens (s : LineState κ) (e : TextSpan) : Prop :=
  p.newSection e.text ≠ none ∨
    (p.IsShort maxSize e ∧ (s.group.lines ≠ [] → s.Full p maxSize e))

/-- A line that opens a group, with the context that is put before it: a heading, and a line
    that becomes part of the context, have none. -/
def LineState.opening (s : LineState κ) (e : TextSpan) : List Char :=
  if (p.newSection e.text).isSome = true ∨ p.adopts s.ctx = true ∨
      p.context s.ctx maxSize = [] then e.text
  else p.context s.ctx maxSize ++ contextSep ++ e.text

/-- Every line that opens a group fits with the context before it, or the group is merged
    into the next line. -/
def LineChunker.OpeningsFit (lines : List TextSpan) : Prop :=
  ∀ (before : List TextSpan) (e : TextSpan) (after : List TextSpan),
    lines = before ++ e :: after →
    (p.run documentId maxSize init before).Opens p maxSize e →
    (PyStr.strip ((p.run documentId maxSize init before).opening p maxSize e)).length ≤ maxSize ∨
      ∃ d ∈ after.head?, (p.run documentId maxSize init (before ++ [e])).Merges p maxSize d

variable {p documentId maxSize init}

/-- The group behind a line that opens one. -/
theorem LineStep.content_of_opens {s s' : LineState κ} {e : TextSpan}
    (h : LineStep p documentId maxSize s e s') (hopens : s.Opens p maxSize e) :
    s'.group.lines = [e] ∧
      s'.group.content (p.context s'.ctx maxSize) = s.opening p maxSize e := by
  cases h with
  | newSection ctx hnew => simp [LineGroup.content, LineState.opening, hnew]
  | merged hmerges =>
    rcases hopens with hnew | ⟨hshort, -⟩
    · exact absurd hmerges.1.1 hnew
    · exact absurd hmerges.1.2 (Nat.not_lt.mpr hshort.2)
  | sliced hlong hkept =>
    rcases hopens with hnew | ⟨hshort, -⟩
    · exact absurd hlong.1 hnew
    · exact absurd hlong.2 (Nat.not_lt.mpr hshort.2)
  | joined hshort hopen hroom =>
    rcases hopens with hnew | ⟨-, hfull⟩
    · exact absurd hshort.1 hnew
    · exact absurd (hfull hopen) hroom
  | opened hshort hfull =>
    refine ⟨rfl, ?_⟩
    by_cases hadopts : p.adopts s.ctx = true
    · simp [LineGroup.content, LineState.opening, hadopts]
    · simp [LineGroup.content, LineState.opening, hadopts, hshort.1]

/-- A group of one line was opened by it. -/
theorem LineStep.opens_of_length_eq_one {s s' : LineState κ} {e : TextSpan}
    (h : LineStep p documentId maxSize s e s') (hone : s'.group.lines.length = 1) :
    s.Opens p maxSize e := by
  cases h with
  | newSection ctx hnew => exact .inl (by simp [hnew])
  | merged | sliced => cases hone
  | joined hshort hopen hroom =>
    have := List.length_pos_iff.mpr hopen
    simp only [List.length_append, List.length_singleton] at hone
    omega
  | opened hshort hfull => exact .inr ⟨hshort, hfull⟩

/-! ## The chunks stay -/

theorem LineGroup.flush_grows (g : LineGroup) (documentId : String) (context : List Char)
    (sink : ChunkSink) : sink.chunks <+: (g.flush documentId context sink).chunks := by
  unfold LineGroup.flush
  split
  · exact List.prefix_rfl
  · exact List.prefix_append _ _

theorem sliceLoop_grows (line : TextSpan) (block : List Char) (budget fuel pos : Nat)
    (sink : ChunkSink) :
    sink.chunks <+: (sliceLoop line documentId block budget fuel pos sink).chunks := by
  induction fuel generalizing sink pos with
  | zero => exact List.prefix_rfl
  | succ fuel ih =>
    unfold sliceLoop
    split
    · have hadd : ∀ content start stop,
          sink.chunks <+: (sink.add documentId content start stop []).chunks :=
        fun _ _ _ => List.prefix_append _ _
      exact (hadd _ _ _).trans (ih _ _)
    · exact List.prefix_rfl

theorem LineStep.grows {s s' : LineState κ} {e : TextSpan}
    (h : LineStep p documentId maxSize s e s') : s.sink.chunks <+: s'.sink.chunks := by
  cases h with
  | newSection | opened => exact LineGroup.flush_grows _ _ _ _
  | merged => exact sliceLoop_grows _ _ _ _ _ _
  | sliced => exact (LineGroup.flush_grows _ _ _ _).trans (sliceLoop_grows _ _ _ _ _ _)
  | joined => exact List.prefix_rfl

variable (p documentId maxSize init) in
theorem LineChunker.run_grows {before rest : List TextSpan}
    (hlines : ∀ e ∈ before ++ rest, PyStr.strip e.text ≠ []) :
    (p.run documentId maxSize init before).sink.chunks <+:
      (p.run documentId maxSize init (before ++ rest)).sink.chunks := by
  induction rest using List.reverseRecOn with
  | nil => rw [List.append_nil]
  | append_singleton rest e ih =>
    rw [← List.append_assoc] at hlines ⊢
    exact (ih fun d hd => hlines d (List.mem_append_left _ hd)).trans
      (p.run_step documentId maxSize init hlines).grows

/-- The chunk of a group is there once the group is flushed. -/
theorem LineGroup.exists_mem_flush {g : LineGroup} (hopen : g.lines ≠ []) (documentId : String)
    (context : List Char) (sink : ChunkSink) : ∃ c ∈ (g.flush documentId context sink).chunks,
      c.content = PyStr.strip (g.content context) := by
  unfold LineGroup.flush
  rw [if_neg hopen]
  exact ⟨_, List.mem_append_right _ (List.mem_singleton_self _), rfl⟩

/-- A group that has no room for the next line, and is not merged into it, gets a chunk. -/
theorem exists_chunk_of_full {text : List Char} {before after : List TextSpan}
    (hlines : contentLines text = before ++ after)
    (hopen : (p.run documentId maxSize init before).group.lines ≠ [])
    (hnext : ∀ d ∈ after.head?, ¬ (p.run documentId maxSize init before).Merges p maxSize d ∧
      (p.run documentId maxSize init before).Full p maxSize d) :
    ∃ c ∈ p.chunks documentId maxSize init text, c.content =
      PyStr.strip ((p.run documentId maxSize init before).group.content
        (p.context (p.run documentId maxSize init before).ctx maxSize)) := by
  have hne : ∀ e ∈ before ++ after, PyStr.strip e.text ≠ [] := fun e he =>
    strip_ne_nil_of_mem_contentLines (hlines ▸ he)
  rw [p.chunks_eq, hlines]
  cases after with
  | nil =>
    rw [List.append_nil]
    exact LineGroup.exists_mem_flush hopen _ _ _
  | cons d rest =>
    obtain ⟨hkept, hfull⟩ := hnext d rfl
    have hassoc : before ++ d :: rest = before ++ [d] ++ rest := by simp
    rw [hassoc] at hne ⊢
    have hstep := p.run_step documentId maxSize init fun e he => hne e (List.mem_append_left rest he)
    have hprefix : (p.run documentId maxSize init (before ++ [d])).sink.chunks <+:
        ((p.run documentId maxSize init (before ++ [d] ++ rest)).flush p documentId
          maxSize).sink.chunks :=
      (p.run_grows documentId maxSize init hne).trans (LineGroup.flush_grows _ _ _ _)
    -- the round on the next line flushes the group
    have hflush : ∃ c ∈ (p.run documentId maxSize init (before ++ [d])).sink.chunks, c.content =
        PyStr.strip ((p.run documentId maxSize init before).group.content
          (p.context (p.run documentId maxSize init before).ctx maxSize)) := by
      generalize p.run documentId maxSize init (before ++ [d]) = s' at hstep
      cases hstep with
      | newSection | opened => exact LineGroup.exists_mem_flush hopen _ _ _
      | merged hmerges => exact absurd hmerges hkept
      | sliced =>
        obtain ⟨c, hc, hcontent⟩ := LineGroup.exists_mem_flush hopen documentId
          (p.context (p.run documentId maxSize init before).ctx maxSize)
          (p.run documentId maxSize init before).sink
        exact ⟨c, (sliceLoop_grows _ _ _ _ _ _).subset hc, hcontent⟩
      | joined hshort hopen' hroom => exact absurd hfull hroom
    obtain ⟨c, hc, hcontent⟩ := hflush
    exact ⟨c, hprefix.subset hc, hcontent⟩

/-- The chunks fit just where every line that opens a group does. -/
theorem LineChunker.chunks_fit_iff (text : List Char) (hmax : 1 ≤ maxSize) :
    (∀ c ∈ p.chunks documentId maxSize init text, c.content.length ≤ maxSize) ↔
      p.OpeningsFit documentId maxSize init (contentLines text) := by
  constructor
  · intro hfit before e after hlines hopens
    have hassoc : before ++ e :: after = before ++ [e] ++ after := by simp
    rw [hassoc] at hlines
    have hne := strip_ne_nil_of_append hlines
    obtain ⟨hgroup, hcontent⟩ := (p.run_step documentId maxSize init hne).content_of_opens hopens
    by_contra hnot
    obtain ⟨hlong, hkept⟩ := not_or.mp hnot
    have hopen : (p.run documentId maxSize init (before ++ [e])).group.lines ≠ [] := by
      rw [hgroup]
      simp
    have hstrip := PyStr.length_strip_le
      ((p.run documentId maxSize init before).opening p maxSize e)
    -- the group is too long to be joined by the next line
    have hnext : ∀ d ∈ after.head?,
        ¬ (p.run documentId maxSize init (before ++ [e])).Merges p maxSize d ∧
          (p.run documentId maxSize init (before ++ [e])).Full p maxSize d := by
      intro d hd
      refine ⟨fun hmerges => hkept ⟨d, hd, hmerges⟩, ?_⟩
      apply (p.run_sized documentId maxSize init hne).full hopen
      · rw [hcontent]
        omega
      · have hmem : d ∈ contentLines text := by
          rw [hlines]
          exact List.mem_append_right _ (List.mem_of_mem_head? hd)
        exact strip_ne_nil_of_mem_contentLines hmem
    obtain ⟨c, hc, heq⟩ := exists_chunk_of_full hlines hopen hnext
    have := hfit c hc
    rw [heq, hcontent] at this
    exact hlong this
  · intro hfit c hc
    obtain ⟨blocks, hblocks⟩ := exists_isBlocks p documentId maxSize init text
    obtain ⟨b, hb, hq⟩ := hblocks.exists_of_mem hc
    cases hblocks.arises b hb with
    | sliced | merged => exact length_part_sliced hmax hq
    | packed before after hlines hopen hkept =>
      have hne := strip_ne_nil_of_append hlines
      rw [LineBlock.parts, List.mem_singleton] at hq
      have hcontent : c.content = PyStr.strip ((p.run documentId maxSize init before).group.content
          (p.context (p.run documentId maxSize init before).ctx maxSize)) := by
        rw [p.run_ctx documentId maxSize init hne]
        exact congrArg TextSpan.text hq
      rw [hcontent]
      by_cases htwo : 2 ≤ (p.run documentId maxSize init before).group.lines.length
      · have hgroup := (p.run_sized documentId maxSize init hne).length_content_le htwo
          (p.strip_ne_nil_of_mem_group documentId maxSize init hne)
        exact (PyStr.length_strip_le _).trans hgroup
      · -- the group has one line, which opened it
        have hone : (p.run documentId maxSize init before).group.lines.length = 1 := by
          have := List.length_pos_iff.mpr hopen
          omega
        rcases List.eq_nil_or_concat before with rfl | ⟨front, e, rfl⟩
        · cases hone
        · rw [List.concat_eq_append] at *
          have hstep := p.run_step documentId maxSize init hne
          have hopens := hstep.opens_of_length_eq_one hone
          rw [(hstep.content_of_opens hopens).2]
          rcases hfit front e after (by rw [hlines]; simp) hopens with hle | ⟨d, hd, hmerges⟩
          · exact hle
          · exact absurd hmerges (hkept d hd)

end Openings

/-! ## Rows and sections -/

/-- The chunks of rows, and of sections, are within `max_size` just where every line that
    opens a group fits with the context before it.  A text without sections is split by size,
    and has no chunk that is too long. -/
theorem line_chunks_fit_iff (text : List Char) (documentId : String) (maxSize overlap : Nat)
    (hmax : 1 ≤ maxSize) :
    ((∀ c ∈ chunkByRows text documentId maxSize, c.content.length ≤ maxSize) ↔
      rowChunker.OpeningsFit documentId maxSize {} (contentLines text)) ∧
    ∃ chunks, chunkBySections text documentId maxSize overlap = some chunks ∧
      ((∀ c ∈ chunks, c.content.length ≤ maxSize) ↔
        (hasSectionMarkers text = true →
          sectionChunker.OpeningsFit documentId maxSize none (contentLines text))) := by
  refine ⟨LineChunker.chunks_fit_iff text hmax, ?_⟩
  cases hmarkers : hasSectionMarkers text with
  | true =>
    refine ⟨_, by rw [chunkBySections, if_pos hmarkers], ?_⟩
    rw [LineChunker.chunks_fit_iff text hmax]
    simp
  | false =>
    obtain ⟨chunks, hchunks, hindex, hpieces⟩ := chunkBySize_eq text documentId overlap hmax
    refine ⟨chunks, ?_, ?_⟩
    · rw [chunkBySections, if_neg (by simp [hmarkers]), hchunks]
    · have hlength := (splitsBySize_of_pieces hmax hindex hpieces).length
      exact ⟨fun _ => nofun, fun _ => hlength⟩

theorem line_chunks_fit_iff_twoRows :
    ((∀ c ∈ chunkByRows "name,total\nrow1,5555\nrow2,6666".toList "doc" 10, c.content.length ≤ 10) ↔
      rowChunker.OpeningsFit "doc" 10 {} (contentLines "name,total\nrow1,5555\nrow2,6666".toList)) ∧
    ∃ chunks, chunkBySections "name,total\nrow1,5555\nrow2,6666".toList "doc" 10 0 = some chunks ∧
      ((∀ c ∈ chunks, c.content.length ≤ 10) ↔
        (hasSectionMarkers "name,total\nrow1,5555\nrow2,6666".toList = true →
          sectionChunker.OpeningsFit "doc" 10 none
            (contentLines "name,total\nrow1,5555\nrow2,6666".toList))) :=
  line_chunks_fit_iff _ "doc" 10 0 (by decide)

/-- A row of normal size behind its header row, and a line of a section behind its heading,
    do not fit. -/
theorem line_chunks_too_long :
    ¬ (∀ c ∈ chunkByRows "name,total\nrow1,5555\nrow2,6666".toList "doc" 10,
        c.content.length ≤ 10) ∧
      ∀ chunks, chunkBySections "## Slide\nbody text".toList "doc" 10 0 = some chunks →
        ¬ ∀ c ∈ chunks, c.content.length ≤ 10 := by
  constructor
  · decide
  · intro chunks hchunks
    have hchunks' : chunkBySections "## Slide\nbody text".toList "doc" 10 0 = some
        [{ documentId := "doc", content := "## Slide".toList, chunkIndex := 0, startChar := 0,
           endChar := 8 },
         { documentId := "doc", content := "## Slide\n\nbody text".toList, chunkIndex := 1,
           startChar := 9, endChar := 18 }] := by
      decide
    rw [← Option.some.inj (hchunks'.symm.trans hchunks)]
    decide

end Inherent

/-!
## The slices of an oversized line

`_slice_oversized_line` cuts a line that is longer than `max_size`, with the context before each
slice.  Its loop ends, as every round advances by the budget, and the budget is what the context
leaves of `max_size`, but never less than the floor.
-/

namespace Inherent

open Tiling (Tiles steps)

/-! ## The loop -/

section Loop

variable (line : TextSpan) (documentId : String) (block : List Char) (budget : Nat)

/-- A round of the loop of `_slice_oversized_line`, from `pos` and the chunks so far; there is none
    at the end of the line. -/
def sliceRound (s : Nat × ChunkSink) : Option (Nat × ChunkSink) :=
  if s.1 < line.text.length then
    let pieceEnd := min (s.1 + budget) line.text.length
    some (pieceEnd, s.2.add documentId
      (PyStr.strip (block ++ PyStr.slice line.text s.1 pieceEnd)) (line.start + s.1)
      (line.start + pieceEnd) [])
  else none

/-- The loop takes a round from `s` to `t`. -/
def SliceStep (s t : Nat × ChunkSink) : Prop := sliceRound line documentId block budget s = some t

variable {line documentId block budget}

/-- The chunk of the part of the line at a step. -/
def sliceChunk (line : TextSpan) (documentId : String) (block : List Char) (index : Nat)
    (s : Nat × Nat) : ChunkData where
  documentId := documentId
  content := PyStr.strip (block ++ PyStr.slice line.text s.1 s.2)
  chunkIndex := index
  startChar := line.start + s.1
  endChar := line.start + s.2
  sectionHeading := []

theorem sliceRound_eq_none_iff {s : Nat × ChunkSink} :
    sliceRound line documentId block budget s = none ↔ line.text.length ≤ s.1 := by
  unfold sliceRound
  split
  · simp only [reduceCtorEq, false_iff]
    omega
  · simp only [true_iff]
    omega

/-- A round advances, as the budget is not 0. -/
theorem SliceStep.advances (hbudget : 0 < budget) {s t : Nat × ChunkSink}
    (h : SliceStep line documentId block budget s t) :
    line.text.length - t.1 < line.text.length - s.1 := by
  unfold SliceStep sliceRound at h
  split at h
  · cases h
    simp only
    omega
  · cases h

/-- There is no run without an end. -/
theorem wellFounded_sliceStep (hbudget : 0 < budget) :
    WellFounded fun t s => SliceStep line documentId block budget s t := by
  apply Subrelation.wf (r := InvImage (· < ·) fun s : Nat × ChunkSink => line.text.length - s.1)
  · intro t s h
    exact h.advances hbudget
  · exact InvImage.wf _ Nat.lt_wfRel.wf

/-- The rounds of the loop end with the sink of `sliceLoop`, if there is fuel for each of the
    characters that are left. -/
theorem sliceLoop_run (hbudget : 0 < budget) {fuel pos : Nat} {sink : ChunkSink}
    (hpos : pos ≤ line.text.length) (hfuel : line.text.length - pos ≤ fuel) :
    Relation.ReflTransGen (SliceStep line documentId block budget) (pos, sink)
      (line.text.length, sliceLoop line documentId block budget fuel pos sink) := by
  -- on the fuel: a round takes one of it, and a character at least
  induction fuel generalizing pos sink with
  | zero =>
    have hend : pos = line.text.length := by omega
    rw [hend, sliceLoop]
  | succ fuel ih =>
    unfold sliceLoop
    split
    · rename_i hlt
      apply Relation.ReflTransGen.head (b := (min (pos + budget) line.text.length, _))
      · exact if_pos hlt
      · apply ih <;> omega
    · have hend : pos = line.text.length := by omega
      rw [hend]

/-- The chunks that the loop adds. -/
theorem chunks_sliceLoop (fuel pos : Nat) (sink : ChunkSink) :
    (sliceLoop line documentId block budget fuel pos sink).chunks =
      sink.chunks ++ (steps budget line.text.length fuel pos).mapIdx fun i s =>
        sliceChunk line documentId block (sink.chunkIndex + i) s := by
  induction fuel generalizing pos sink with
  | zero => simp [sliceLoop, steps]
  | succ fuel ih =>
    unfold sliceLoop steps
    split
    · rw [ih, List.mapIdx_cons, ChunkSink.add, List.append_assoc, List.singleton_append]
      simp only [Nat.add_assoc, Nat.add_comm 1]
      rfl
    · simp

end Loop

/-! ## The slices -/

/-- The slices partition the line. -/
structure PartitionsLine (line : TextSpan) (context : List Char) (maxSize : Nat)
    (slices : List ChunkData) : Prop where
  /-- The spans lie one behind the other, and are together that of the line. -/
  spans : Tiles line.start (line.start + line.text.length)
    (slices.map fun c => (c.startChar, c.endChar))
  /-- The parts of the line at the spans are together the line. -/
  text : (slices.map fun c => PyStr.slice line.text (c.startChar - line.start)
    (c.endChar - line.start)).flatten = line.text
  /-- A slice has the context and its part of the line. -/
  content : ∀ c ∈ slices, c.content = PyStr.strip (sliceBlock context maxSize ++
    PyStr.slice line.text (c.startChar - line.start) (c.endChar - line.start))
  /-- Every slice but the last one advances by the floor at least. -/
  progress : ∀ c ∈ slices.dropLast, c.startChar + max 1 (maxSize / 5) ≤ c.endChar
  size : ∀ c ∈ slices, c.content.length ≤ maxSize

section Slices

variable (line : TextSpan) (documentId : String) {maxSize : Nat} (context : List Char) (index : Nat)

/-- The slices of a line, from an index on. -/
def slicesOf (maxSize : Nat) : List ChunkData :=
  (sliceSteps context maxSize line).mapIdx fun i s =>
    sliceChunk line documentId (sliceBlock context maxSize) (index + i) s

/-- What does not depend on the index of a slice. -/
theorem map_slicesOf {α : Type} {f : ChunkData → α} {g : Nat × Nat → α}
    (h : ∀ i s, f (sliceChunk line documentId (sliceBlock context maxSize) i s) = g s) :
    (slicesOf line documentId context index maxSize).map f =
      (sliceSteps context maxSize line).map g := by
  apply List.ext_getElem
  · simp [slicesOf]
  · intro i hi _
    simp only [slicesOf, List.getElem_map, List.getElem_mapIdx, h]

theorem exists_of_mem_slicesOf {c : ChunkData}
    (hc : c ∈ slicesOf line documentId context index maxSize) :
    ∃ s ∈ sliceSteps context maxSize line, ∃ i,
      c = sliceChunk line documentId (sliceBlock context maxSize) i s := by
  obtain ⟨i, hi, rfl⟩ := List.mem_mapIdx.mp hc
  exact ⟨_, List.getElem_mem hi, index + i, rfl⟩

theorem exists_of_mem_dropLast_slicesOf {c : ChunkData}
    (hc : c ∈ (slicesOf line documentId context index maxSize).dropLast) :
    ∃ s ∈ (sliceSteps context maxSize line).dropLast, ∃ i,
      c = sliceChunk line documentId (sliceBlock context maxSize) i s := by
  unfold slicesOf at hc
  rcases List.eq_nil_or_concat' (sliceSteps context maxSize line) with hnil | ⟨front, last, hsteps⟩
  · rw [hnil] at hc
    cases hc
  · rw [hsteps, List.mapIdx_concat, List.dropLast_concat] at hc
    rw [hsteps, List.dropLast_concat]
    obtain ⟨i, hi, rfl⟩ := List.mem_mapIdx.mp hc
    exact ⟨_, List.getElem_mem hi, index + i, rfl⟩

/-- The part of the line at the span of a slice is that of its step. -/
theorem slice_sliceChunk (block : List Char) (i : Nat) (s : Nat × Nat) :
    PyStr.slice line.text ((sliceChunk line documentId block i s).startChar - line.start)
      ((sliceChunk line documentId block i s).endChar - line.start) =
        PyStr.slice line.text s.1 s.2 := by
  simp only [sliceChunk, Nat.add_sub_cancel_left]

theorem partitionsLine_slicesOf (hmax : 1 ≤ maxSize) :
    PartitionsLine line context maxSize (slicesOf line documentId context index maxSize) where
  spans := by
    rw [map_slicesOf (g := fun s => (line.start + s.1, line.start + s.2)) line documentId context
      index fun i s => rfl]
    exact (tiles_sliceSteps context maxSize line).shift line.start
  text := by
    rw [map_slicesOf line documentId context index fun i s =>
      slice_sliceChunk line documentId _ i s]
    have hflatten := (tiles_sliceSteps context maxSize line).flatten (le_refl line.text.length)
    rw [List.take_length, List.drop_zero] at hflatten
    exact hflatten
  content c hc := by
    obtain ⟨s, -, i, rfl⟩ := exists_of_mem_slicesOf line documentId context index hc
    rw [slice_sliceChunk]
    rfl
  progress c hc := by
    obtain ⟨s, hs, i, rfl⟩ := exists_of_mem_dropLast_slicesOf line documentId context index hc
    have hfull := Tiling.length_of_mem_dropLast_steps hs
    have hfloor : max 1 (maxSize / 5) ≤ sliceBudget context maxSize := Nat.le_max_left _ _
    simp only [sliceChunk]
    omega
  size c hc := by
    obtain ⟨s, hs, i, rfl⟩ := exists_of_mem_slicesOf line documentId context index hc
    have hpart : (sliceChunk line documentId (sliceBlock context maxSize) i s).part ∈
        (LineBlock.sliced [] line context).parts maxSize := List.mem_map_of_mem hs
    exact length_part_sliced hmax hpart

end Slices

/-- For every line, sink, context and size of at least 1: the loop of `_slice_oversized_line` has
    no run without an end, its run ends with what `_slice_oversized_line` returns, and the chunks
    that it adds partition the line. -/
theorem sliceOversizedLine_partitions (line : TextSpan) (documentId : String) {maxSize : Nat}
    (hmax : 1 ≤ maxSize) (context : List Char) (sink : ChunkSink) :
    let block := sliceBlock context maxSize
    let budget := sliceBudget context maxSize
    let out := sliceOversizedLine line documentId maxSize context sink
    (WellFounded fun t s => SliceStep line documentId block budget s t) ∧
      Relation.ReflTransGen (SliceStep line documentId block budget) (0, sink)
        (line.text.length, out) ∧
      sliceRound line documentId block budget (line.text.length, out) = none ∧
      ∃ slices, out.chunks = sink.chunks ++ slices ∧
        PartitionsLine line context maxSize slices := by
  have hbudget := sliceBudget_pos context maxSize
  refine ⟨wellFounded_sliceStep hbudget, ?_, sliceRound_eq_none_iff.mpr (le_refl _), ?_⟩
  · exact sliceLoop_run hbudget (Nat.zero_le _) (Nat.sub_le _ _)
  · exact ⟨slicesOf line documentId context sink.chunkIndex maxSize, chunks_sliceLoop _ _ _,
      partitionsLine_slicesOf line documentId context sink.chunkIndex hmax⟩

/-- A line of seven characters with a context of three, for chunks of eight. -/
theorem sliceOversizedLine_partitions_eight :
    1 ≤ 8 ∧ ∃ slices, (sliceOversizedLine ⟨"a,b,c,d".toList, 4, 11⟩ "d" 8 "h,k".toList {}).chunks =
        [] ++ slices ∧
      PartitionsLine ⟨"a,b,c,d".toList, 4, 11⟩ "h,k".toList 8 slices :=
  ⟨by decide, (sliceOversizedLine_partitions ⟨"a,b,c,d".toList, 4, 11⟩ "d" (by decide : 1 ≤ 8)
    "h,k".toList {}).2.2.2⟩

end Inherent
