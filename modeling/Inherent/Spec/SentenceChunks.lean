import Inherent.Spec.PackedUnits

/-!
# Chunks of sentences and of paragraphs

The paragraphs of a text are packed without an overlap, and its sentences with one.  Both
cover the text in order, but for one case: a text that ends with whitespace behind its last
sentence has an empty sentence at its end, and this may close a group that is too long.
What is kept of the group is then emitted once more.
-/

namespace Inherent

open GreedyPacking (Packer IsCover window)

/-- The sentences of a text that are not blank. -/
def sentenceUnits (text : List Char) : List TextSpan :=
  (sentenceSpans text).filter fun u => PyStr.strip u.text ≠ []

/-- The text ends with a sentence that fits into the overlap and with whitespace behind it,
    and the group that this sentence is in is longer than `max_size`. -/
def RepeatsTail (text : List Char) (maxSize overlap : Nat) : Prop :=
  ∃ front last rest, sentenceSpans text = front ++ [last, rest] ∧ rest.text = [] ∧
    last.text.length ≤ overlap ∧
    maxSize < ((front ++ [last]).foldl (PackState.packSentence "" maxSize overlap) {}).currentSize

/-! ## Groups that are not blank -/

/-- The units of windows that cover them are not blank, if the units are not. -/
theorem groupContent_ne_nil (sep : List Char) {units : List TextSpan} {ws : List (Nat × Nat)}
    (hne : ∀ u ∈ units, PyStr.strip u.text ≠ []) (hcover : IsCover units.length ws) :
    ∀ g ∈ ws.map (window units), groupContent sep g ≠ [] := by
  intro g hg
  obtain ⟨w, hw, rfl⟩ := List.mem_map.mp hg
  obtain ⟨hlt, hle⟩ := hcover.bounds w hw
  have hhead := GreedyPacking.head?_window units hlt
  rw [List.getElem?_eq_getElem (by omega)] at hhead
  exact PyStr.strip_join_ne_nil (List.mem_map_of_mem (List.mem_of_head? hhead))
    (hne _ (List.getElem_mem _))

/-- A unit that is not blank has a span that is not empty. -/
theorem InOrder.start_lt {text : List Char} {cursor : Nat} {us : List TextSpan}
    (h : InOrder text cursor us) (hne : ∀ u ∈ us, PyStr.strip u.text ≠ []) :
    ∀ u ∈ us, u.start < u.stop := by
  induction us generalizing cursor with
  | nil => simp
  | cons u us ih =>
    obtain ⟨-, hstop, -, -, -, hrest⟩ := h
    intro v hv
    rcases List.mem_cons.mp hv with rfl | hv
    · have hpos : 0 < v.text.length := by
        apply List.length_pos_iff.mpr
        intro hnil
        exact hne v List.mem_cons_self (by rw [hnil]; rfl)
      omega
    · exact ih hrest (fun w hw => hne w (List.mem_cons_of_mem _ hw)) v hv

section Units

variable {text sep : List Char} {documentId : String} {maxSize : Nat}
  {keep : List TextSpan → List TextSpan × Nat} {units : List TextSpan}

/-- The chunks of units that are not blank. -/
theorem finish_chunks (hkeep : Keeps keep) (hne : ∀ u ∈ units, PyStr.strip u.text ≠ []) :
    ((units.foldl (PackState.pack sep documentId maxSize keep) {}).finish sep documentId).chunks =
      ((unitPacker maxSize keep hkeep).groups units).mapIdx (groupChunk sep documentId) := by
  obtain ⟨ws, hgroups, hcover⟩ := (unitPacker maxSize keep hkeep).groups_cover units
  rw [finish_foldl hkeep, hgroups, foldl_emit (groupContent_ne_nil sep hne hcover)]

/-- Units that are not blank are covered in order. -/
theorem coversInOrder_finish (hkeep : Keeps keep) (horder : InOrder text 0 units)
    (hne : ∀ u ∈ units, PyStr.strip u.text ≠ []) :
    CoversInOrder text sep units
      ((units.foldl (PackState.pack sep documentId maxSize keep) {}).finish sep
        documentId).chunks := by
  obtain ⟨ws, hgroups, hcover⟩ := (unitPacker maxSize keep hkeep).groups_cover units
  rw [finish_chunks hkeep hne, hgroups]
  exact coversInOrder_mapIdx horder (horder.start_lt hne) hcover

end Units

/-- `_chunk_by_paragraphs` covers the text in order. -/
theorem chunkByParagraphs_covers (text : List Char) (documentId : String) (maxSize : Nat) :
    CoversInOrder text ['\n', '\n'] (paragraphSpans text)
      (chunkByParagraphs text documentId maxSize) := by
  refine coversInOrder_finish keeps_nothing (paragraphSpans_inOrder text) fun u hu => ?_
  obtain ⟨raw, hraw, hne⟩ := ne_nil_of_mem_paragraphSpansFrom hu
  intro hblank
  have hall := PyStr.strip_eq_nil_iff.mp hblank
  obtain ⟨c, tail, hcons⟩ := List.exists_cons_of_ne_nil hne
  have hc := PyStr.isSpace_head_strip (hraw.symm.trans hcons)
  rw [hall c (by rw [hcons]; exact List.mem_cons_self)] at hc
  cases hc

/-! ## The empty sentence at the end -/

/-- Where the scan of the units stands. -/
def scanEnd (cursor : Nat) (us : List TextSpan) : Nat :=
  (us.getLast?.map TextSpan.stop).getD cursor

theorem scanEnd_cons (cursor : Nat) (u : TextSpan) (us : List TextSpan) :
    scanEnd cursor (u :: us) = scanEnd u.stop us := by
  rw [scanEnd, List.getLast?_cons, scanEnd]
  cases us.getLast? <;> rfl

/-- An empty sentence at the end stands at the end of the one before it. -/
theorem sentenceSpansFrom_concat (text : List Char) (cursor : Nat) (sentences : List (List Char)) :
    sentenceSpansFrom text cursor (sentences ++ [[]]) =
      sentenceSpansFrom text cursor sentences ++
        [{ text := [], start := scanEnd cursor (sentenceSpansFrom text cursor sentences)
           stop := scanEnd cursor (sentenceSpansFrom text cursor sentences) }] := by
  induction sentences generalizing cursor with
  | nil => simp [sentenceSpansFrom, scanEnd]
  | cons s ss ih => simp only [List.cons_append, sentenceSpansFrom, ih, scanEnd_cons]

/-- A sentence that ends with `.`, `!` or `?` is not blank. -/
theorem strip_ne_nil_of_ends {s : List Char} (h : ∃ c ∈ s.getLast?, endsSentence c = true) :
    PyStr.strip s ≠ [] := by
  obtain ⟨c, hc, hend⟩ := h
  intro hblank
  have := PyStr.strip_eq_nil_iff.mp hblank c (List.mem_of_getLast? hc)
  rw [isSpace_of_endsSentence hend] at this
  cases this

/-- The sentences of a text: none is blank, or there is one only, or the last one is empty
    and stands at the end of the one before it. -/
theorem sentenceSpans_shape (text : List Char) :
    (∀ u ∈ sentenceSpans text, PyStr.strip u.text ≠ []) ∨
      (∃ e, sentenceSpans text = [e] ∧ PyStr.strip e.text = []) ∨
      ∃ front last, sentenceSpans text = front ++ [last] ++
          [{ text := [], start := last.stop, stop := last.stop }] ∧
        ∀ u ∈ front ++ [last], PyStr.strip u.text ≠ [] := by
  obtain ⟨ends, tail, hsplit, hends, htail⟩ := splitSentences_shape text
  have hmap := map_text_sentenceSpans text
  have hnonblank : ∀ us : List TextSpan, us.map TextSpan.text = ends →
      ∀ u ∈ us, PyStr.strip u.text ≠ [] := by
    intro us hus u hu
    exact strip_ne_nil_of_ends (hends u.text (hus ▸ List.mem_map_of_mem hu))
  by_cases hblank : PyStr.strip tail = []
  · cases hlast : ends.getLast? with
    | none =>
      -- the text is one blank sentence
      rw [List.getLast?_eq_none_iff] at hlast
      rw [hsplit, hlast] at hmap
      obtain ⟨e, he, htext⟩ := List.map_eq_singleton_iff.mp hmap
      exact .inr (.inl ⟨e, he, by rw [htext]; exact hblank⟩)
    | some s =>
      have hne : ends ≠ [] := by
        intro hnil
        simp [hnil] at hlast
      have hnil : tail = [] := by
        by_contra hcons
        rcases htail with ⟨h, -⟩ | h
        · exact hne h
        · obtain ⟨c, rest, rfl, hc⟩ := starts_of_lstrip_eq h hcons
          have := PyStr.strip_eq_nil_iff.mp hblank c List.mem_cons_self
          rw [hc] at this
          cases this
      have hspans := sentenceSpansFrom_concat text 0 ends
      rw [← hnil, ← hsplit] at hspans
      have hends' := map_text_sentenceSpansFrom text 0 ends
      obtain ⟨front, last, hfront⟩ : ∃ front last, sentenceSpansFrom text 0 ends = front ++ [last] := by
        rcases List.eq_nil_or_concat' (sentenceSpansFrom text 0 ends) with h | h
        · rw [h] at hends'
          exact absurd hends'.symm hne
        · exact h
      refine .inr (.inr ⟨front, last, ?_, ?_⟩)
      · rw [sentenceSpans, hspans, hfront, hnil]
        simp [scanEnd]
      · rw [← hfront]
        exact hnonblank _ hends'
  · refine .inl fun u hu => ?_
    have hmem : u.text ∈ ends ++ [tail] := by
      rw [← hsplit, ← hmap]
      exact List.mem_map_of_mem hu
    rcases List.mem_append.mp hmem with hmem | hmem
    · exact strip_ne_nil_of_ends (hends _ hmem)
    · rwa [List.mem_singleton.mp hmem]

/-! ## The last group -/

/-- An empty unit at the end does not change the content of a group. -/
theorem groupContent_concat {sep : List Char} {g : List TextSpan} {e : TextSpan}
    (hsep : PyStr.Blank sep) (hne : g ≠ []) (he : e.text = []) :
    groupContent sep (g ++ [e]) = groupContent sep g := by
  have hmap : g.map TextSpan.text ≠ [] := by simpa using hne
  rw [groupContent, List.map_append, List.map_singleton, PyStr.join_concat hmap, he,
    List.append_nil, PyStr.strip_append_of_blank hsep, groupContent]

/-- An empty unit at the end, which stands at the end of the last unit, does not change what
    is emitted of a group. -/
theorem emit_concat {sep : List Char} {documentId : String} {sink : ChunkSink}
    {g : List TextSpan} {last e : TextSpan} (hsep : PyStr.Blank sep)
    (hlast : g.getLast? = some last) (he : e.text = []) (hstop : e.stop = last.stop) :
    sink.emit sep documentId (g ++ [e]) = sink.emit sep documentId g := by
  have hne : g ≠ [] := by
    intro hnil
    simp [hnil] at hlast
  obtain ⟨u, us, rfl⟩ := List.exists_cons_of_ne_nil hne
  have hcontent := groupContent_concat hsep hne he
  have hlast' : (u :: us ++ [e]).getLast? = some e := List.getLast?_concat
  simp only [groupContent] at hcontent
  rw [ChunkSink.emit, ChunkSink.emit, hcontent, hlast, hlast']
  simp [hstop]

/-- The loop over the trailing sentences only adds to what is kept. -/
theorem suffix_overlapTail (overlap : Nat) (us : List TextSpan) (kept : List TextSpan × Nat) :
    kept.1 <:+ (overlapTail overlap us kept).1 := by
  induction us generalizing kept with
  | nil => exact List.suffix_refl _
  | cons u us ih =>
    unfold overlapTail
    split
    · exact (List.suffix_cons u kept.1).trans (ih (u :: kept.1, _))
    · exact List.suffix_refl _

/-- The overlap keeps something of a group just if it has room for its last unit. -/
theorem overlapTail_eq_nil_iff (overlap : Nat) {g : List TextSpan} {last : TextSpan}
    (hlast : g.getLast? = some last) :
    (overlapTail overlap g.reverse ([], 0)).1 = [] ↔ ¬ last.text.length ≤ overlap := by
  obtain ⟨front, rfl⟩ := List.getLast?_eq_some_iff.mp hlast
  rw [List.reverse_append, List.reverse_singleton, List.singleton_append, overlapTail,
    Nat.zero_add]
  by_cases hfit : last.text.length ≤ overlap
  · rw [if_pos hfit]
    have hsuffix := suffix_overlapTail overlap front.reverse ([last], last.text.length)
    constructor
    · intro hnil
      rw [hnil] at hsuffix
      simp at hsuffix
    · exact fun hnot => absurd hfit hnot
  · rw [if_neg hfit]
    simp [hfit]

section Tail

variable (maxSize overlap : Nat) (front : List TextSpan) (last : TextSpan)

/-- The packer of `_chunk_by_sentences`. -/
def sentencePacker (maxSize overlap : Nat) : Packer TextSpan :=
  unitPacker maxSize _ (keeps_overlapTail overlap)

/-- The group that is open behind the last sentence ends with it. -/
theorem getLast?_current :
    ((sentencePacker maxSize overlap).run (front ++ [last])).current.getLast? = some last := by
  rw [Packer.run_concat, Packer.step]
  split
  · simp
  · simp

/-- What is kept of the group that is open behind the last sentence. -/
def keptTail (maxSize overlap : Nat) (units : List TextSpan) : List TextSpan :=
  (overlapTail overlap ((sentencePacker maxSize overlap).run units).current.reverse ([], 0)).1

/-- What is kept ends with the last sentence. -/
theorem getLast?_keptTail (h : keptTail maxSize overlap (front ++ [last]) ≠ []) :
    (keptTail maxSize overlap (front ++ [last])).getLast? = some last := by
  obtain ⟨before, hbefore⟩ := (keeps_overlapTail overlap).suffix
    ((sentencePacker maxSize overlap).run (front ++ [last])).current
  have hlast := getLast?_current maxSize overlap front last
  change before ++ keptTail maxSize overlap (front ++ [last]) = _ at hbefore
  rw [← hbefore, List.getLast?_append_of_ne_nil _ h] at hlast
  exact hlast

/-- An empty sentence at the end of the last one. -/
def emptySentence (last : TextSpan) : TextSpan where
  text := []
  start := last.stop
  stop := last.stop

/-- The chunks of sentences with an empty one at the end: those of the sentences, and what is
    kept of the last group if this is too long. -/
theorem finish_emptySentence (documentId : String) :
    ((front ++ [last] ++ [emptySentence last]).foldl
        (PackState.packSentence documentId maxSize overlap) {}).finish [' '] documentId =
      (((sentencePacker maxSize overlap).groups (front ++ [last])) ++
        if maxSize < unitsSize ((sentencePacker maxSize overlap).run (front ++ [last])).current then
          [keptTail maxSize overlap (front ++ [last])]
        else []).foldl (ChunkSink.emit [' '] documentId) {} := by
  have hblank : PyStr.Blank [' '] := by
    intro c hc
    rw [List.mem_singleton.mp hc]
    rfl
  have hlast := getLast?_current maxSize overlap front last
  have hkept := getLast?_keptTail maxSize overlap front last
  rw [PackState.packSentence, finish_foldl (keeps_overlapTail overlap)]
  change ((sentencePacker maxSize overlap).run _).groups.foldl _ _ = _
  rw [Packer.run_concat]
  simp only [Packer.groups, keptTail] at hkept ⊢
  generalize (sentencePacker maxSize overlap).run (front ++ [last]) = st at hlast hkept ⊢
  have hopen : st.current ≠ [] := by
    intro hnil
    simp [hnil] at hlast
  have hfull : (sentencePacker maxSize overlap).full st.current (emptySentence last) = true ↔
      maxSize < unitsSize st.current := by
    rw [sentencePacker, unitPacker, decide_eq_true_iff, emptySentence, List.length_nil, Nat.add_zero]
  rw [Packer.groups_step hopen]
  by_cases hlong : maxSize < unitsSize st.current
  · -- the empty sentence closes the group
    rw [if_pos (hfull.mpr hlong), if_pos hlong, List.foldl_concat, List.foldl_concat]
    change ChunkSink.emit _ _ _ ((overlapTail overlap st.current.reverse ([], 0)).1 ++ _) = _
    by_cases hnil : (overlapTail overlap st.current.reverse ([], 0)).1 = []
    · rw [hnil]
      rfl
    · rw [emit_concat (e := emptySentence last) hblank (hkept hnil) rfl rfl]
  · rw [if_neg fun h => hlong (hfull.mp h), if_neg hlong, List.append_nil,
      st.groups_of_ne_nil hopen, List.foldl_concat, List.foldl_concat,
      emit_concat (e := emptySentence last) hblank hlast rfl rfl]

end Tail

/-! ## When sentences are covered in order -/

/-- What is kept of the last group, emitted once more, has no sentence that is new. -/
theorem not_coversInOrder_repeat {text sep : List Char} {documentId : String}
    {units kept : List TextSpan} (p : Packer TextSpan) (horder : InOrder text 0 units)
    (hne : ∀ u ∈ units, PyStr.strip u.text ≠ []) (hkept : kept <:+ (p.run units).current)
    (hnonempty : kept ≠ []) :
    ¬ CoversInOrder text sep units ((p.groups units ++ [kept]).mapIdx
      (groupChunk sep documentId)) := by
  intro hcovers
  obtain ⟨ws, a, hw⟩ := p.run_windows units
  have hunits : units ≠ [] := by
    rintro rfl
    exact hnonempty (List.suffix_nil.mp (by simpa using hkept))
  have hgroups : p.groups units = ws.map (window units) ++ [window units (a, units.length)] := by
    rw [Packer.groups, GreedyPacking.State.groups_of_ne_nil (hw.current_ne_nil hunits), hw.closed,
      hw.current]
  rw [hw.current] at hkept
  obtain ⟨b, hab, hbn, rfl⟩ := GreedyPacking.suffix_window (Nat.le_refl _) hw.start_le hkept
  have hlt : b < units.length := by
    apply Nat.lt_of_le_of_ne hbn
    rintro rfl
    exact hnonempty (by simp [window])
  rw [hgroups] at hcovers
  have hspans := horder.start_lt hne
  -- the repeated chunk comes right behind that of the last group
  obtain ⟨u, hu, hholds, hnew⟩ := hcovers.progress (ws.length + 1)
    (groupChunk sep documentId (ws.length + 1) (window units (b, units.length)))
    (by simp)
  obtain ⟨i, hi⟩ := List.getElem?_of_mem hu
  have hin := (holds_groupChunk_iff horder hspans hlt (Nat.le_refl _) hi).mp hholds
  refine hnew ws.length (groupChunk sep documentId ws.length (window units (a, units.length)))
    (Nat.lt_succ_self _) (by simp) ?_
  apply (holds_groupChunk_iff horder hspans (Nat.lt_of_le_of_lt hab hlt) (Nat.le_refl _) hi).mpr
  simp only at hin ⊢
  omega

/-- The condition, for a text that has an empty sentence at its end. -/
theorem repeatsTail_iff {text : List Char} {maxSize overlap : Nat}
    {front : List TextSpan} {last : TextSpan}
    (hspans : sentenceSpans text = front ++ [last] ++ [emptySentence last]) :
    RepeatsTail text maxSize overlap ↔
      maxSize < unitsSize ((sentencePacker maxSize overlap).run (front ++ [last])).current ∧
        keptTail maxSize overlap (front ++ [last]) ≠ [] := by
  have hsize := (packs_foldl [' '] "" maxSize (keeps_overlapTail overlap) (front ++ [last])).size
  have hkept := overlapTail_eq_nil_iff overlap (getLast?_current maxSize overlap front last)
  constructor
  · rintro ⟨front', last', rest, hspans', -, hfit, hlong⟩
    rw [hspans, List.append_assoc, List.singleton_append] at hspans'
    obtain ⟨hfront, hlast⟩ := List.append_inj' hspans' rfl
    simp only [List.cons.injEq, and_true] at hlast
    rw [← hfront, ← hlast.1] at hlong
    rw [← hlast.1] at hfit
    refine ⟨?_, fun hnil => hkept.mp hnil hfit⟩
    rw [PackState.packSentence, hsize] at hlong
    exact hlong
  · rintro ⟨hlong, hne⟩
    refine ⟨front, last, emptySentence last, ?_, rfl, ?_, ?_⟩
    · rw [hspans, List.append_assoc, List.singleton_append]
    · by_contra hfit
      exact hne (hkept.mpr hfit)
    · rw [PackState.packSentence, hsize]
      exact hlong

/-- An empty sentence at the end is left out. -/
theorem sentenceUnits_of_shape {text : List Char} {front : List TextSpan} {last : TextSpan}
    (hspans : sentenceSpans text = front ++ [last] ++ [emptySentence last])
    (hne : ∀ u ∈ front ++ [last], PyStr.strip u.text ≠ []) :
    sentenceUnits text = front ++ [last] := by
  rw [sentenceUnits, hspans, List.filter_append,
    List.filter_eq_self.mpr fun u hu => by simpa using hne u hu]
  simp [emptySentence, PyStr.strip, PyStr.lstrip]

/-- The sentences that are not blank stand in the text in order. -/
theorem sentenceUnits_inOrder (text : List Char) : InOrder text 0 (sentenceUnits text) := by
  have horder := sentenceSpans_inOrder text
  rcases sentenceSpans_shape text with hne | ⟨e, he, hblank⟩ | ⟨front, last, hspans, hne⟩
  · have hunits : sentenceUnits text = sentenceSpans text :=
      List.filter_eq_self.mpr fun u hu => by simpa using hne u hu
    rwa [hunits]
  · have hunits : sentenceUnits text = [] := by simp [sentenceUnits, he, hblank]
    rw [hunits]
    trivial
  · have hunits := sentenceUnits_of_shape hspans hne
    have := horder.take (front ++ [last]).length
    rwa [hspans, List.take_left, ← hunits] at this

theorem strip_ne_nil_of_mem_sentenceUnits {text : List Char} {u : TextSpan}
    (hu : u ∈ sentenceUnits text) : PyStr.strip u.text ≠ [] := by
  simpa using (List.mem_filter.mp hu).2

/-- The groups of the sentences that are not blank are not blank. -/
theorem sentenceGroups_ne_nil (text : List Char) (maxSize overlap : Nat) :
    ∀ g ∈ (sentencePacker maxSize overlap).groups (sentenceUnits text),
      groupContent [' '] g ≠ [] := by
  obtain ⟨ws, hgroups, hcover⟩ :=
    (sentencePacker maxSize overlap).groups_cover (sentenceUnits text)
  rw [hgroups]
  exact groupContent_ne_nil [' '] (fun u hu => strip_ne_nil_of_mem_sentenceUnits hu) hcover

/-- The chunks are those of the sentences that are not blank, and one of what is kept of the
    last group if the end of the text is repeated. -/
theorem chunkBySentences_eq (text : List Char) (documentId : String) (maxSize overlap : Nat) :
    (¬ RepeatsTail text maxSize overlap ∧ chunkBySentences text documentId maxSize overlap =
        ((sentencePacker maxSize overlap).groups (sentenceUnits text)).mapIdx
          (groupChunk [' '] documentId)) ∨
      (RepeatsTail text maxSize overlap ∧ keptTail maxSize overlap (sentenceUnits text) ≠ [] ∧
        chunkBySentences text documentId maxSize overlap =
          ((sentencePacker maxSize overlap).groups (sentenceUnits text) ++
            [keptTail maxSize overlap (sentenceUnits text)]).mapIdx
              (groupChunk [' '] documentId)) := by
  have hcontents := sentenceGroups_ne_nil text maxSize overlap
  rcases sentenceSpans_shape text with hne | ⟨e, he, hblank⟩ | ⟨front, last, hspans, hne⟩
  · -- no sentence is blank
    have hunits : sentenceUnits text = sentenceSpans text :=
      List.filter_eq_self.mpr fun u hu => by simpa using hne u hu
    refine .inl ⟨?_, by rw [hunits]; exact finish_chunks (keeps_overlapTail overlap) hne⟩
    rintro ⟨front, last, rest, hspans, hnil, -⟩
    apply hne rest (by simp [hspans])
    rw [hnil]
    rfl
  · -- the text is blank, and nothing is emitted
    have hunits : sentenceUnits text = [] := by simp [sentenceUnits, he, hblank]
    refine .inl ⟨?_, ?_⟩
    · rintro ⟨front, last, rest, hspans, -⟩
      have := congrArg List.length (he.symm.trans hspans)
      simp at this
    · rw [hunits]
      simp [chunkBySentences, he, PackState.packSentence, PackState.pack, PackState.finish,
        ChunkSink.emit, hblank, Packer.groups, GreedyPacking.State.groups]
  · have hunits := sentenceUnits_of_shape hspans hne
    have hfinish := finish_emptySentence maxSize overlap front last documentId
    rw [hunits] at hcontents ⊢
    rw [repeatsTail_iff hspans, chunkBySentences, hspans]
    change _ ∧ ChunkSink.chunks (((front ++ [last] ++ [emptySentence last]).foldl
        (PackState.packSentence documentId maxSize overlap) {}).finish [' '] documentId) = _ ∨
      _ ∧ _ ∧ ChunkSink.chunks (((front ++ [last] ++ [emptySentence last]).foldl
        (PackState.packSentence documentId maxSize overlap) {}).finish [' '] documentId) = _
    rw [hfinish]
    by_cases hlong :
        maxSize < unitsSize ((sentencePacker maxSize overlap).run (front ++ [last])).current
    · rw [if_pos hlong]
      by_cases hnil : keptTail maxSize overlap (front ++ [last]) = []
      · refine .inl ⟨fun h => h.2 hnil, ?_⟩
        rw [hnil, List.foldl_concat, foldl_emit hcontents]
        rfl
      · have hkept : groupContent [' '] (keptTail maxSize overlap (front ++ [last])) ≠ [] :=
          PyStr.strip_join_ne_nil (List.mem_map_of_mem
            (List.mem_of_getLast? (getLast?_keptTail maxSize overlap front last hnil)))
            (hne last (by simp))
        refine .inr ⟨⟨hlong, hnil⟩, hnil, ?_⟩
        rw [foldl_emit fun g hg => by
          rcases List.mem_append.mp hg with hg | hg
          · exact hcontents g hg
          · rw [List.mem_singleton.mp hg]
            exact hkept]
    · refine .inl ⟨fun h => hlong h.1, ?_⟩
      rw [if_neg hlong, List.append_nil, foldl_emit hcontents]

/-- `_chunk_by_sentences` covers the text in order unless it repeats the end of the text. -/
theorem chunkBySentences_covers_iff (text : List Char) (documentId : String)
    (maxSize overlap : Nat) :
    CoversInOrder text [' '] (sentenceUnits text)
        (chunkBySentences text documentId maxSize overlap) ↔
      ¬ RepeatsTail text maxSize overlap := by
  have horder := sentenceUnits_inOrder text
  have hne : ∀ u ∈ sentenceUnits text, PyStr.strip u.text ≠ [] := fun u hu =>
    strip_ne_nil_of_mem_sentenceUnits hu
  rcases chunkBySentences_eq text documentId maxSize overlap with ⟨hnot, hchunks⟩ |
    ⟨hrepeats, hkept, hchunks⟩
  · obtain ⟨ws, hgroups, hcover⟩ :=
      (sentencePacker maxSize overlap).groups_cover (sentenceUnits text)
    rw [hchunks, hgroups]
    exact iff_of_true (coversInOrder_mapIdx horder (horder.start_lt hne) hcover) hnot
  · rw [hchunks]
    exact iff_of_false (not_coversInOrder_repeat _ horder hne
      ((keeps_overlapTail overlap).suffix _) hkept) fun h => h hrepeats

/-- Sentences and paragraphs cover every text in order but one that ends with whitespace
    behind a sentence that is emitted a second time. -/
theorem units_cover_iff (text : List Char) (documentId : String) (maxSize overlap : Nat) :
    (CoversInOrder text [' '] (sentenceUnits text)
        (chunkBySentences text documentId maxSize overlap) ∧
      CoversInOrder text ['\n', '\n'] (paragraphSpans text)
        (chunkByParagraphs text documentId maxSize)) ↔
      ¬ RepeatsTail text maxSize overlap := by
  rw [chunkBySentences_covers_iff]
  exact and_iff_left (chunkByParagraphs_covers text documentId maxSize)

/-- A sentence and a blank behind it: the sentence is emitted twice. -/
theorem chunkBySentences_repeats :
    ¬ ∀ (text : List Char) (documentId : String) (maxSize overlap : Nat), 1 ≤ maxSize →
      CoversInOrder text [' '] (sentenceUnits text)
          (chunkBySentences text documentId maxSize overlap) ∧
        CoversInOrder text ['\n', '\n'] (paragraphSpans text)
          (chunkByParagraphs text documentId maxSize) := by
  intro h
  obtain ⟨hcovers, -⟩ := h "Aaaa. Bbbbb. ".toList "doc" 10 8 (by decide)
  obtain ⟨u, hu, hholds, hnew⟩ := hcovers.progress 2
    { documentId := "doc", content := "Bbbbb.".toList, chunkIndex := 2, startChar := 6,
      endChar := 12 } (by decide)
  have hmem : u = { text := "Aaaa.".toList, start := 0, stop := 5 } ∨
      u = { text := "Bbbbb.".toList, start := 6, stop := 12 } := by
    have hunits : sentenceUnits "Aaaa. Bbbbb. ".toList =
        [{ text := "Aaaa.".toList, start := 0, stop := 5 },
         { text := "Bbbbb.".toList, start := 6, stop := 12 }] := by decide
    rw [hunits] at hu
    simpa using hu
  have hsecond := hnew 1
    { documentId := "doc", content := "Aaaa. Bbbbb.".toList, chunkIndex := 1, startChar := 0,
      endChar := 12 } (by decide) (by decide)
  rcases hmem with rfl | rfl
  · exact hsecond (by decide)
  · exact hsecond (by decide)

end Inherent
