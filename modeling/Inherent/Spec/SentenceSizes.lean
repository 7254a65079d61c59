import Inherent.Spec.SentenceChunks

/-!
# The size of sentence chunks

`_chunk_by_sentences` compares the summed lengths of the sentences with `max_size` before it
adds the next one to a group.  It does not count the spaces that join them, and it does not
compare again what it keeps of a full group with the sentence that comes behind it.  The
chunks of several sentences are within `max_size` just if each of the groups is, with the
spaces, whenever a sentence has been added to it.
-/

namespace Inherent

open GreedyPacking (Packer IsCover window)

/-- The length of the joined sentences without the whitespace around each: one space for
    each but the first. -/
def joinedSize (g : List TextSpan) : Nat :=
  (g.map fun u => (PyStr.strip u.text).length).sum + (g.length - 1)

/-- Whenever the loop adds a sentence to a group that has others, the sentences of the group
    and the spaces between them fit into `max_size`. -/
def SpacesFit (text : List Char) (maxSize overlap : Nat) : Prop :=
  ∀ (before : List TextSpan) (u : TextSpan) (after : List TextSpan),
    sentenceUnits text = before ++ u :: after →
    let group := ((before ++ [u]).foldl (PackState.packSentence "" maxSize overlap) {}).current
    1 < group.length → joinedSize group ≤ maxSize

/-! ## The length of the content of a group -/

/-- Only the first of the sentences starts with whitespace, and only the last one ends with
    it. -/
structure Tight (g : List TextSpan) : Prop where
  nonblank : ∀ u ∈ g, ¬ PyStr.Blank u.text
  starts : ∀ u ∈ g.tail, PyStr.lstrip u.text = u.text
  ends : ∀ u ∈ g.dropLast, PyStr.rstrip u.text = u.text

theorem Tight.tail {u : TextSpan} {us : List TextSpan} (h : Tight (u :: us)) : Tight us where
  nonblank v hv := h.nonblank v (List.mem_cons_of_mem _ hv)
  starts v hv := h.starts v (List.mem_of_mem_tail hv)
  ends v hv := by
    cases us with
    | nil => cases hv
    | cons w ws => exact h.ends v (List.mem_cons_of_mem _ hv)

theorem Tight.of_append_right {g g' : List TextSpan} (h : Tight (g ++ g')) : Tight g' := by
  induction g with
  | nil => exact h
  | cons u us ih => exact ih h.tail

theorem Tight.of_append_left {g g' : List TextSpan} (h : Tight (g ++ g')) : Tight g where
  nonblank u hu := h.nonblank u (List.mem_append_left _ hu)
  starts u hu := by
    have hne : g ≠ [] := by
      intro hnil
      simp [hnil] at hu
    apply h.starts
    rw [List.tail_append_of_ne_nil hne]
    exact List.mem_append_left _ hu
  ends u hu := by
    apply h.ends
    cases g' with
    | nil => rwa [List.append_nil]
    | cons v vs =>
      rw [List.dropLast_append_of_ne_nil (by simp)]
      exact List.mem_append_left _ (List.mem_of_mem_dropLast hu)

/-- The joined text of tight sentences is not blank. -/
theorem Tight.not_blank_join {v : TextSpan} {vs : List TextSpan} (h : Tight (v :: vs)) :
    ¬ PyStr.Blank (PyStr.join [' '] ((v :: vs).map TextSpan.text)) := by
  intro hall
  exact h.nonblank v List.mem_cons_self fun c hc =>
    hall c (PyStr.mem_join (List.mem_map_of_mem List.mem_cons_self) hc)

/-- A window of tight sentences is tight. -/
theorem Tight.window {g : List TextSpan} (h : Tight g) (w : Nat × Nat) :
    Tight (GreedyPacking.window g w) := by
  have hstart : Tight (g.take w.2) := by
    rw [← List.take_append_drop w.2 g] at h
    exact h.of_append_left
  rw [← List.take_append_drop w.1 (g.take w.2)] at hstart
  exact hstart.of_append_right

/-- The joined sentences without the whitespace at their end. -/
theorem length_rstrip_join {g : List TextSpan} (h : Tight g)
    (hstarts : ∀ u ∈ g, PyStr.lstrip u.text = u.text) :
    (PyStr.rstrip (PyStr.join [' '] (g.map TextSpan.text))).length = joinedSize g := by
  induction g with
  | nil => rfl
  | cons u us ih =>
    have hstrip : ∀ v : TextSpan, PyStr.lstrip v.text = v.text →
        PyStr.strip v.text = PyStr.rstrip v.text := by
      intro v hv
      rw [PyStr.strip_eq_rstrip_lstrip, hv]
    cases us with
    | nil =>
      simp [joinedSize, hstrip u (hstarts u List.mem_cons_self)]
    | cons v vs =>
      have hrest := ih h.tail fun w hw => hstarts w (List.mem_cons_of_mem _ hw)
      have hu : PyStr.strip u.text = u.text := by
        rw [hstrip u (hstarts u List.mem_cons_self), h.ends u (by simp)]
      rw [List.map_cons, List.map_cons, PyStr.join_cons_cons, ← List.map_cons,
        PyStr.rstrip_append_of_not_blank _ h.tail.not_blank_join, List.length_append, hrest]
      simp only [joinedSize, List.map_cons, List.sum_cons, hu, List.length_append,
        List.length_cons, List.length_nil]
      omega

/-- `rstrip` does not change a text that it leaves as it is, with `lstrip` or without it. -/
theorem rstrip_lstrip {text : List Char} (hne : ¬ PyStr.Blank text)
    (h : PyStr.rstrip text = text) : PyStr.rstrip (PyStr.lstrip text) = PyStr.lstrip text := by
  obtain ⟨before, hbefore, hblank⟩ := PyStr.exists_append_lstrip text
  have hrest : ¬ PyStr.Blank (PyStr.lstrip text) := by
    intro hall
    apply hne
    rw [hbefore]
    exact PyStr.Blank.append hblank hall
  rw [hbefore, PyStr.rstrip_append_of_not_blank _ hrest] at h
  exact List.append_cancel_left h

/-- The length of the content of a group of sentences. -/
theorem length_groupContent {g : List TextSpan} (h : Tight g) :
    (groupContent [' '] g).length = joinedSize g := by
  cases g with
  | nil => rfl
  | cons u us =>
    cases us with
    | nil => simp [groupContent, joinedSize]
    | cons v vs =>
      have hrest := length_rstrip_join h.tail h.starts
      have hu : PyStr.strip u.text = PyStr.lstrip u.text := by
        rw [PyStr.strip_eq_rstrip_lstrip]
        exact rstrip_lstrip (h.nonblank u List.mem_cons_self) (h.ends u (by simp))
      rw [groupContent, List.map_cons, List.map_cons, PyStr.join_cons_cons, ← List.map_cons,
        PyStr.strip_eq_rstrip_lstrip, List.append_assoc,
        PyStr.lstrip_append_of_not_blank _ (h.nonblank u List.mem_cons_self), ← List.append_assoc,
        PyStr.rstrip_append_of_not_blank _ h.tail.not_blank_join, List.length_append, hrest]
      simp only [joinedSize, List.map_cons, List.sum_cons, hu, List.length_append,
        List.length_cons, List.length_nil]
      omega

/-- A sentence that ends with `.`, `!` or `?` is not changed by `rstrip`. -/
theorem rstrip_of_ends {s : List Char} (h : ∃ c ∈ s.getLast?, endsSentence c = true) :
    PyStr.rstrip s = s := by
  obtain ⟨c, hc, hend⟩ := h
  obtain ⟨front, rfl⟩ := List.getLast?_eq_some_iff.mp hc
  have hspace := isSpace_of_endsSentence hend
  have hblank : ¬ PyStr.Blank [c] := by
    intro hall
    have := hall c (List.mem_singleton_self c)
    rw [hspace] at this
    cases this
  rw [PyStr.rstrip_append_of_not_blank front hblank]
  simp [PyStr.rstrip, PyStr.lstrip, hspace]

/-- The sentences that are not blank are the first ones. -/
theorem sentenceUnits_prefix (text : List Char) : sentenceUnits text <+: sentenceSpans text := by
  rcases sentenceSpans_shape text with hne | ⟨e, he, hblank⟩ | ⟨front, last, hspans, hne⟩
  · have hunits : sentenceUnits text = sentenceSpans text :=
      List.filter_eq_self.mpr fun u hu => by simpa using hne u hu
    rw [hunits]
  · have hunits : sentenceUnits text = [] := by simp [sentenceUnits, he, hblank]
    rw [hunits]
    exact List.nil_prefix
  · rw [sentenceUnits_of_shape hspans hne, hspans]
    exact List.prefix_append _ _

/-- The sentences of a text are tight. -/
theorem tight_sentenceUnits (text : List Char) : Tight (sentenceUnits text) where
  nonblank u hu hblank := strip_ne_nil_of_mem_sentenceUnits hu (PyStr.strip_eq_nil_iff.mpr hblank)
  starts u hu := by
    obtain ⟨more, hmore⟩ := sentenceUnits_prefix text
    have hne : sentenceUnits text ≠ [] := by
      intro hnil
      simp [hnil] at hu
    have hmem : u ∈ (sentenceSpans text).tail := by
      rw [← hmore, List.tail_append_of_ne_nil hne]
      exact List.mem_append_left _ hu
    have htext := List.mem_map_of_mem (f := TextSpan.text) hmem
    rw [List.map_tail, map_text_sentenceSpans] at htext
    exact lstrip_of_mem_tail_splitSentences htext
  ends u hu := by
    obtain ⟨more, hmore⟩ := sentenceUnits_prefix text
    obtain ⟨ends, last, hsplit, hends, -⟩ := splitSentences_shape text
    have hmem : u ∈ (sentenceSpans text).dropLast := by
      rw [← hmore]
      cases more with
      | nil => rwa [List.append_nil]
      | cons v vs =>
        rw [List.dropLast_append_of_ne_nil (by simp)]
        exact List.mem_append_left _ (List.mem_of_mem_dropLast hu)
    have htext := List.mem_map_of_mem (f := TextSpan.text) hmem
    rw [List.map_dropLast, map_text_sentenceSpans, hsplit, List.dropLast_concat] at htext
    exact rstrip_of_ends (hends _ htext)

/-! ## Groups within `max_size` -/

/-- A part of a group is no longer than the group. -/
theorem joinedSize_le_append (g g' : List TextSpan) :
    joinedSize g ≤ joinedSize (g ++ g') ∧ joinedSize g' ≤ joinedSize (g ++ g') := by
  simp only [joinedSize, List.map_append, List.sum_append, List.length_append]
  omega

/-- The groups of several sentences are within `max_size` just if they are whenever a
    sentence has been added. -/
theorem groups_fit_iff (text : List Char) (maxSize overlap : Nat) :
    (∀ g ∈ (sentencePacker maxSize overlap).groups (sentenceUnits text),
        1 < g.length → joinedSize g ≤ maxSize) ↔ SpacesFit text maxSize overlap := by
  have hcurrent : ∀ units, (units.foldl (PackState.packSentence "" maxSize overlap) {}).current =
      ((sentencePacker maxSize overlap).run units).current := fun units =>
    (packs_foldl [' '] "" maxSize (keeps_overlapTail overlap) units).current
  unfold SpacesFit
  simp only [hcurrent]
  constructor
  · intro hgroups before u after hunits hlen
    have hne : ((sentencePacker maxSize overlap).run (before ++ [u])).current ≠ [] :=
      List.ne_nil_of_length_pos (by omega)
    obtain ⟨g, hg, more, rfl⟩ :=
      (sentencePacker maxSize overlap).exists_prefix_group (before ++ [u]) after hne
    rw [List.append_assoc, List.singleton_append, ← hunits] at hg
    have hfit := hgroups _ hg (by rw [List.length_append]; omega)
    exact Nat.le_trans (joinedSize_le_append _ more).1 hfit
  · intro hfit g hg hlen
    obtain ⟨before, u, after, hunits, rfl⟩ := (sentencePacker maxSize overlap).exists_of_mem_groups hg
    exact hfit before u after hunits hlen

/-- The chunks of windows of the sentences are within `max_size` just if the windows are. -/
theorem mapIdx_fit_iff {text : List Char} {documentId : String} {maxSize : Nat}
    {groups : List (List TextSpan)}
    (hwindow : ∀ g ∈ groups, ∃ w, w.1 < w.2 ∧ w.2 ≤ (sentenceUnits text).length ∧
      g = window (sentenceUnits text) w) :
    (∀ c ∈ groups.mapIdx (groupChunk [' '] documentId),
        1 < ((sentenceUnits text).filter fun u => c.Holds u).length →
          c.content.length ≤ maxSize) ↔
      ∀ g ∈ groups, 1 < g.length → joinedSize g ≤ maxSize := by
  have horder := sentenceUnits_inOrder text
  have hspans := horder.start_lt fun u hu => strip_ne_nil_of_mem_sentenceUnits hu
  -- the sentences that the chunk of a group holds, and the length of its content
  have hchunk : ∀ (k : Nat), ∀ g ∈ groups,
      ((sentenceUnits text).filter fun u => (groupChunk [' '] documentId k g).Holds u) = g ∧
        (groupChunk [' '] documentId k g).content.length = joinedSize g := by
    intro k g hg
    obtain ⟨w, hlt, hle, rfl⟩ := hwindow g hg
    exact ⟨filter_holds_groupChunk horder hspans hlt hle,
      length_groupContent ((tight_sentenceUnits text).window w)⟩
  constructor
  · intro hfit g hg hlen
    obtain ⟨k, hk⟩ := List.getElem?_of_mem hg
    have hmem : groupChunk [' '] documentId k g ∈ groups.mapIdx (groupChunk [' '] documentId) := by
      apply List.mem_of_getElem? (i := k)
      rw [List.getElem?_mapIdx, hk]
      rfl
    have h := hfit _ hmem
    rw [(hchunk k g hg).1, (hchunk k g hg).2] at h
    exact h hlen
  · intro hfit c hc hlen
    obtain ⟨k, hk⟩ := List.getElem?_of_mem hc
    rw [List.getElem?_mapIdx] at hk
    obtain ⟨g, hg, rfl⟩ := Option.map_eq_some_iff.mp hk
    have hmem := List.mem_of_getElem? hg
    rw [(hchunk k g hmem).1] at hlen
    rw [(hchunk k g hmem).2]
    exact hfit g hmem hlen

/-- The chunks of several sentences are within `max_size` just if the joining spaces fit
    whenever a sentence is added to a group. -/
theorem chunkBySentences_size_iff (text : List Char) (documentId : String)
    (maxSize overlap : Nat) :
    (∀ c ∈ chunkBySentences text documentId maxSize overlap,
        1 < ((sentenceUnits text).filter fun u => c.Holds u).length →
          c.content.length ≤ maxSize) ↔ SpacesFit text maxSize overlap := by
  rw [← groups_fit_iff]
  obtain ⟨ws, hgroups, hcover⟩ :=
    (sentencePacker maxSize overlap).groups_cover (sentenceUnits text)
  have hwindow : ∀ g ∈ (sentencePacker maxSize overlap).groups (sentenceUnits text),
      ∃ w, w.1 < w.2 ∧ w.2 ≤ (sentenceUnits text).length ∧ g = window (sentenceUnits text) w := by
    intro g hg
    rw [hgroups] at hg
    obtain ⟨w, hw, rfl⟩ := List.mem_map.mp hg
    exact ⟨w, (hcover.bounds w hw).1, (hcover.bounds w hw).2, rfl⟩
  rcases chunkBySentences_eq text documentId maxSize overlap with ⟨-, hchunks⟩ |
    ⟨-, hkept, hchunks⟩
  · rw [hchunks]
    exact mapIdx_fit_iff hwindow
  · -- what is kept is the end of the last group
    obtain ⟨before, hbefore⟩ := (keeps_overlapTail overlap).suffix
      ((sentencePacker maxSize overlap).run (sentenceUnits text)).current
    change before ++ keptTail maxSize overlap (sentenceUnits text) = _ at hbefore
    have hlast : before ++ keptTail maxSize overlap (sentenceUnits text) ∈
        (sentencePacker maxSize overlap).groups (sentenceUnits text) := by
      have hopen : ((sentencePacker maxSize overlap).run (sentenceUnits text)).current ≠ [] := by
        rw [← hbefore]
        simp [hkept]
      rw [hbefore, Packer.groups, GreedyPacking.State.groups_of_ne_nil hopen]
      simp
    have hend : ∃ w, w.1 < w.2 ∧ w.2 ≤ (sentenceUnits text).length ∧
        keptTail maxSize overlap (sentenceUnits text) = window (sentenceUnits text) w := by
      obtain ⟨w, hlt, hle, hw⟩ := hwindow _ hlast
      obtain ⟨b, -, hb, hkeptw⟩ := GreedyPacking.suffix_window hle (Nat.le_of_lt hlt)
        (hw ▸ List.suffix_append before _)
      refine ⟨(b, w.2), ?_, hle, hkeptw⟩
      apply Nat.lt_of_le_of_ne hb
      rintro rfl
      exact hkept (by simp [hkeptw, window])
    rw [hchunks, mapIdx_fit_iff fun g hg => by
      rcases List.mem_append.mp hg with hg | hg
      · exact hwindow g hg
      · rw [List.mem_singleton.mp hg]
        exact hend]
    constructor
    · exact fun hfit g hg => hfit g (List.mem_append_left _ hg)
    · intro hfit g hg hlen
      rcases List.mem_append.mp hg with hg | hg
      · exact hfit g hg hlen
      · rw [List.mem_singleton.mp hg] at hlen ⊢
        have := hfit _ hlast (by rw [List.length_append]; omega)
        exact Nat.le_trans (joinedSize_le_append before _).2 this

/-- Two sentences of five characters with a space between them, at most ten characters. -/
theorem chunkBySentences_oversize :
    ¬ ∀ (text : List Char) (documentId : String) (maxSize overlap : Nat), 1 ≤ maxSize →
      ∀ c ∈ chunkBySentences text documentId maxSize overlap,
        1 < ((sentenceUnits text).filter fun u => c.Holds u).length →
          c.content.length ≤ maxSize := by
  intro h
  have hlen := h "Aaaa. Bbbb.".toList "doc" 10 0 (by decide)
    { documentId := "doc", content := "Aaaa. Bbbb.".toList, chunkIndex := 0, startChar := 0,
      endChar := 11 } (by decide) (by decide)
  exact absurd hlen (by decide)

end Inherent
