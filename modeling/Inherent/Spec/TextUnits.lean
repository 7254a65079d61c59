import Inherent.Native.ChunkText

/-!
# The units of a text

A text is split into sentences behind `.`, `!` and `?`, and into paragraphs at empty
lines.  Both scans find every unit at its own place: the units stand in the text in order,
and there is only whitespace between them.
-/

namespace Inherent

open PyStr (Blank)

/-- There is only whitespace in the text between `a` and `b`. -/
def BlankBetween (text : List Char) (a b : Nat) : Prop := Blank (PyStr.slice text a b)

/-- The units stand in the text in order, from `cursor` on, each at its span, with only
    whitespace before the first and between two of them. -/
def InOrder (text : List Char) : Nat → List TextSpan → Prop
  | _, [] => True
  | cursor, u :: us =>
    cursor ≤ u.start ∧ u.stop = u.start + u.text.length ∧ u.stop ≤ text.length ∧
      u.text = PyStr.slice text u.start u.stop ∧ BlankBetween text cursor u.start ∧
      InOrder text u.stop us

/-- Two slices next to each other. -/
theorem slice_append_slice {text : List Char} {a b c : Nat} (hab : a ≤ b) (hbc : b ≤ c)
    (hb : b ≤ text.length) :
    PyStr.slice text a b ++ PyStr.slice text b c = PyStr.slice text a c := by
  have hlen : a ≤ (text.take b).length := by
    rw [List.length_take]
    omega
  have htake : (text.take c).take b = text.take b := by rw [List.take_take, Nat.min_eq_left hbc]
  unfold PyStr.slice
  rw [← htake] at hlen ⊢
  rw [← List.drop_append_of_le_length hlen, List.take_append_drop]

theorem BlankBetween.trans {text : List Char} {a b c : Nat} (hab : a ≤ b) (hbc : b ≤ c)
    (hb : b ≤ text.length) (h : BlankBetween text a b) (h' : BlankBetween text b c) :
    BlankBetween text a c := by
  rw [BlankBetween, ← slice_append_slice hab hbc hb]
  exact h.append h'

/-- A scan may start earlier, in whitespace. -/
theorem InOrder.weaken {text : List Char} {a b : Nat} {us : List TextSpan} (hab : a ≤ b)
    (hb : b ≤ text.length) (hblank : BlankBetween text a b) (h : InOrder text b us) :
    InOrder text a us := by
  cases us with
  | nil => trivial
  | cons u us =>
    obtain ⟨hstart, hstop, hlen, htext, hbetween, hrest⟩ := h
    exact ⟨Nat.le_trans hab hstart, hstop, hlen, htext, hblank.trans hab hstart hb hbetween, hrest⟩

/-- A unit that stands behind a blank, which begins at `cursor`. -/
theorem inOrder_cons (before unit rest : List Char) (us : List TextSpan) {gap : List Char}
    (hgap : Blank gap)
    (hrest : InOrder (before ++ gap ++ unit ++ rest) (before.length + gap.length + unit.length)
      us) :
    InOrder (before ++ gap ++ unit ++ rest) before.length
      ({ text := unit, start := before.length + gap.length,
         stop := before.length + gap.length + unit.length } :: us) := by
  refine ⟨Nat.le_add_right _ _, rfl, ?_, ?_, ?_, hrest⟩
  · simp only [List.length_append]
    omega
  · have h := PyStr.slice_append (before ++ gap) unit rest
    rw [List.length_append] at h
    exact h.symm
  · have h := PyStr.slice_append before gap (unit ++ rest)
    rw [← List.append_assoc] at h
    rw [BlankBetween]
    simp only
    rw [h]
    exact hgap

/-! ## Sentences -/

/-- Between two sentences all whitespace is skipped. -/
theorem splitSentencesFrom_between (text : List Char) :
    splitSentencesFrom .between text = splitSentences (PyStr.lstrip text) := by
  induction text with
  | nil => rfl
  | cons c rest ih =>
    by_cases hc : PyStr.isSpace c = true
    · rw [splitSentencesFrom, if_pos hc, ih]
      congr 1
      simp [PyStr.lstrip, hc]
    · rw [splitSentencesFrom, if_neg hc,
        PyStr.lstrip_cons_of_not_space (by simpa using hc)]
      rfl

/-- A sentence and the whitespace behind it. -/
structure SentenceEnd (mode : SentenceMode) (text sentence gap rest : List Char) : Prop where
  eq : text = sentence ++ gap ++ rest
  blank : Blank gap
  lstripped : PyStr.lstrip rest = rest
  split : splitSentencesFrom mode text = sentence :: splitSentences rest
  last : (sentence = [] ∧ mode = .ended) ∨ ∃ c ∈ sentence.getLast?, endsSentence c = true

/-- A text is one sentence, or starts with one that ends before a blank. -/
theorem splitSentencesFrom_cases (mode : SentenceMode) (hmode : mode ≠ .between)
    (text : List Char) :
    splitSentencesFrom mode text = [text] ∨
      ∃ sentence gap rest, SentenceEnd mode text sentence gap rest := by
  induction text generalizing mode with
  | nil => exact .inl (by cases mode <;> rfl)
  | cons c text ih =>
    -- what follows a character of the sentence
    have hchar : splitSentencesFrom mode (c :: text) =
          consFirst c (splitSentencesFrom (modeAfter c) text) →
        splitSentencesFrom mode (c :: text) = [c :: text] ∨
          ∃ sentence gap rest, SentenceEnd mode (c :: text) sentence gap rest := by
      intro hcons
      have hafter : modeAfter c ≠ .between := by
        unfold modeAfter
        split <;> simp
      rcases ih (modeAfter c) hafter with hone | ⟨sentence, gap, rest, h⟩
      · exact .inl (by rw [hcons, hone]; rfl)
      · refine .inr ⟨c :: sentence, gap, rest, ?_, h.blank, h.lstripped, ?_, .inr ?_⟩
        · rw [h.eq]
          rfl
        · rw [hcons, h.split]
          rfl
        · rcases h.last with ⟨hnil, hended⟩ | ⟨d, hd, hend⟩
          · refine ⟨c, by simp [hnil], ?_⟩
            by_contra hc
            simp [modeAfter, hc] at hended
          · refine ⟨d, ?_, hend⟩
            rw [List.getLast?_cons, Option.mem_def.mp hd]
            rfl
    cases mode with
    | between => exact absurd rfl hmode
    | inside => exact hchar rfl
    | ended =>
      by_cases hc : PyStr.isSpace c = true
      · -- the sentence ends here
        obtain ⟨before, hbefore, hblank⟩ := PyStr.exists_append_lstrip text
        refine .inr ⟨[], c :: before, PyStr.lstrip text, ?_, ?_, ?_, ?_, .inl ⟨rfl, rfl⟩⟩
        · rw [List.nil_append, List.cons_append, ← hbefore]
        · intro d hd
          rcases List.mem_cons.mp hd with rfl | hd
          · exact hc
          · exact hblank d hd
        · exact List.dropWhile_idempotent PyStr.isSpace text
        · simp only [splitSentencesFrom, if_pos hc, splitSentencesFrom_between]
      · exact hchar (by simp only [splitSentencesFrom, if_neg hc])

/-- A text is one sentence, or starts with one that ends before a blank. -/
theorem splitSentences_cases (text : List Char) :
    splitSentences text = [text] ∨
      ∃ sentence gap rest, SentenceEnd .inside text sentence gap rest :=
  splitSentencesFrom_cases .inside (by simp) text

theorem SentenceEnd.splitSentences {text sentence gap rest : List Char}
    (h : SentenceEnd .inside text sentence gap rest) :
    splitSentences text = sentence :: splitSentences rest := h.split

/-- A sentence that ends before a blank ends with `.`, `!` or `?`. -/
theorem SentenceEnd.getLast {text sentence gap rest : List Char}
    (h : SentenceEnd .inside text sentence gap rest) :
    ∃ c ∈ sentence.getLast?, endsSentence c = true := by
  rcases h.last with ⟨-, hmode⟩ | hlast
  · cases hmode
  · exact hlast

theorem SentenceEnd.ne_nil {text sentence gap rest : List Char}
    (h : SentenceEnd .inside text sentence gap rest) : sentence ≠ [] := by
  obtain ⟨c, hc, -⟩ := h.getLast
  intro hnil
  simp [hnil] at hc

/-- What is left is shorter. -/
theorem SentenceEnd.length_lt {text sentence gap rest : List Char}
    (h : SentenceEnd .inside text sentence gap rest) : rest.length < text.length := by
  have := List.length_pos_iff.mpr h.ne_nil
  rw [h.eq]
  simp only [List.length_append]
  omega

/-- A text that `lstrip` does not change is empty or starts with more than whitespace. -/
theorem starts_of_lstrip_eq {text : List Char} (h : PyStr.lstrip text = text) (hne : text ≠ []) :
    ∃ c tail, text = c :: tail ∧ PyStr.isSpace c = false := by
  obtain ⟨c, tail, hcons⟩ := List.exists_cons_of_ne_nil hne
  exact ⟨c, tail, hcons, PyStr.isSpace_head_lstrip (h.trans hcons)⟩

/-- The scan finds the sentences of what is left of the text at their places. -/
theorem sentenceSpansFrom_inOrder (before text : List Char) {gap : List Char} (hgap : Blank gap)
    (hstart : gap = [] ∨ PyStr.lstrip text = text) :
    InOrder (before ++ gap ++ text) before.length
      (sentenceSpansFrom (before ++ gap ++ text) before.length (splitSentences text)) := by
  -- on the length of what is left
  induction hn : text.length using Nat.strongRecOn generalizing before text gap with
  | _ n ih =>
    have hpattern : ∀ pattern rest, pattern ≠ [] → text = pattern ++ rest →
        gap = [] ∨ ∃ c tail, pattern = c :: tail ∧ PyStr.isSpace c = false := by
      intro pattern rest hne htext
      refine hstart.imp_right fun hl => ?_
      obtain ⟨c, tail, hcons⟩ := List.exists_cons_of_ne_nil hne
      rw [hcons, List.cons_append] at htext
      exact ⟨c, tail, hcons, PyStr.isSpace_head_lstrip (hl.trans htext)⟩
    rcases splitSentences_cases text with hone | ⟨sentence, gap', rest, h⟩
    · rw [hone]
      by_cases hnil : text = []
      · -- an empty sentence stands at the cursor
        simp only [sentenceSpansFrom, hnil, if_pos, List.append_nil]
        refine ⟨Nat.le_refl _, by simp, by simp, ?_, ?_, trivial⟩
        · simp [PyStr.slice]
        · simp [BlankBetween, PyStr.slice, Blank]
      · have hfind : PyStr.find (before ++ gap ++ text) text before.length =
            some (before.length + gap.length) := by
          have := PyStr.find_eq_some before [] hgap
            (hpattern text [] hnil (by simp))
          rwa [List.append_nil] at this
        rw [sentenceSpansFrom, if_neg hnil, hfind]
        have := inOrder_cons before text [] [] hgap trivial
        rwa [List.append_nil] at this
    · have hfind : PyStr.find (before ++ gap ++ text) sentence before.length =
          some (before.length + gap.length) := by
        have := PyStr.find_eq_some before (gap' ++ rest) hgap
          (hpattern sentence (gap' ++ rest) h.ne_nil (by rw [h.eq, List.append_assoc]))
        rwa [List.append_assoc, ← List.append_assoc sentence, ← h.eq] at this
      rw [h.splitSentences, sentenceSpansFrom, if_neg h.ne_nil, hfind, Option.getD_some]
      have htext : before ++ gap ++ text = before ++ gap ++ sentence ++ (gap' ++ rest) := by
        rw [h.eq]
        simp only [List.append_assoc]
      have hrest := ih rest.length (hn ▸ h.length_lt) (before ++ gap ++ sentence) rest h.blank
        (.inr h.lstripped) rfl
      rw [List.append_assoc _ gap' rest, ← htext, List.length_append, List.length_append] at hrest
      rw [htext] at hrest ⊢
      exact inOrder_cons before sentence (gap' ++ rest) _ hgap hrest

/-- The sentences of a text stand in it in order. -/
theorem sentenceSpans_inOrder (text : List Char) : InOrder text 0 (sentenceSpans text) := by
  have h := sentenceSpansFrom_inOrder [] text PyStr.blank_nil
    (.inl rfl)
  simpa [sentenceSpans] using h

/-- The units are the texts of the split. -/
theorem map_text_sentenceSpansFrom (text : List Char) (cursor : Nat) (sentences : List (List Char)) :
    (sentenceSpansFrom text cursor sentences).map TextSpan.text = sentences := by
  induction sentences generalizing cursor with
  | nil => rfl
  | cons s ss ih => simp only [sentenceSpansFrom, List.map_cons, ih]

theorem map_text_sentenceSpans (text : List Char) :
    (sentenceSpans text).map TextSpan.text = splitSentences text :=
  map_text_sentenceSpansFrom text 0 (splitSentences text)

/-- A character that ends a sentence is no whitespace. -/
theorem isSpace_of_endsSentence {c : Char} (h : endsSentence c = true) : PyStr.isSpace c = false := by
  simp only [endsSentence, Bool.or_eq_true, beq_iff_eq] at h
  rcases h with (rfl | rfl) | rfl <;> rfl

/-- All sentences but the last one end with `.`, `!` or `?`, and the last one is the whole
    text or starts with more than whitespace. -/
theorem splitSentences_shape (text : List Char) :
    ∃ front last, splitSentences text = front ++ [last] ∧
      (∀ s ∈ front, ∃ c ∈ s.getLast?, endsSentence c = true) ∧
      (front = [] ∧ last = text ∨ PyStr.lstrip last = last) := by
  induction hn : text.length using Nat.strongRecOn generalizing text with
  | _ n ih =>
    rcases splitSentences_cases text with hone | ⟨sentence, gap, rest, h⟩
    · exact ⟨[], text, hone, by simp, .inl ⟨rfl, rfl⟩⟩
    · obtain ⟨front, last, hsplit, hfront, hlast⟩ := ih rest.length (hn ▸ h.length_lt) rest rfl
      refine ⟨sentence :: front, last, by rw [h.splitSentences, hsplit]; rfl, ?_, .inr ?_⟩
      · intro s hs
        rcases List.mem_cons.mp hs with rfl | hs
        · exact h.getLast
        · exact hfront s hs
      · rcases hlast with ⟨-, rfl⟩ | hlast
        · exact h.lstripped
        · exact hlast

/-- The sentences of a text that starts with more than whitespace do so too. -/
theorem lstrip_of_mem_splitSentences {text s : List Char} (htext : PyStr.lstrip text = text)
    (hs : s ∈ splitSentences text) : PyStr.lstrip s = s := by
  induction hn : text.length using Nat.strongRecOn generalizing text with
  | _ n ih =>
    rcases splitSentences_cases text with hone | ⟨sentence, gap, rest, h⟩
    · rw [hone, List.mem_singleton] at hs
      rwa [hs]
    · rw [h.splitSentences] at hs
      rcases List.mem_cons.mp hs with rfl | hs
      · obtain ⟨c, tail, hcons⟩ := List.exists_cons_of_ne_nil h.ne_nil
        have heq := h.eq
        rw [hcons, List.cons_append] at heq
        rw [hcons]
        exact PyStr.lstrip_cons_of_not_space (PyStr.isSpace_head_lstrip (htext.trans heq))
      · exact ih rest.length (hn ▸ h.length_lt) h.lstripped hs rfl

/-- Every sentence but the first starts with more than whitespace, or is empty. -/
theorem lstrip_of_mem_tail_splitSentences {text s : List Char}
    (hs : s ∈ (splitSentences text).tail) : PyStr.lstrip s = s := by
  rcases splitSentences_cases text with hone | ⟨sentence, gap, rest, h⟩
  · simp [hone] at hs
  · rw [h.splitSentences, List.tail_cons] at hs
    exact lstrip_of_mem_splitSentences h.lstripped hs

/-! ## Paragraphs -/

/-- A text is one block, or starts with one that ends before an empty line. -/
theorem splitBlocks_cases (text : List Char) :
    splitBlocks text = [text] ∨
      ∃ raw rest, text = raw ++ ['\n', '\n'] ++ rest ∧
        splitBlocks text = raw :: splitBlocks rest := by
  induction text using splitBlocks.induct with
  | case1 => exact .inl rfl
  | case2 c => exact .inl rfl
  | case3 c d rest hnewline =>
    refine .inr ⟨[], rest, ?_, ?_⟩
    · rw [hnewline.1, hnewline.2]
      rfl
    · rw [splitBlocks, if_pos hnewline]
  | case4 c d rest hchar ih =>
    rw [splitBlocks, if_neg hchar]
    rcases ih with hone | ⟨raw, rest', hrest, hsplit⟩
    · exact .inl (by rw [hone]; rfl)
    · refine .inr ⟨c :: raw, rest', ?_, ?_⟩
      · rw [hrest]
        rfl
      · rw [hsplit]
        rfl

/-- The scan of one block: the paragraph stands in it, and the scan goes on behind it. -/
theorem inOrder_block (before raw rest : List Char) (us : List TextSpan)
    (hrest : InOrder (before ++ raw ++ rest) (before.length + raw.length) us) :
    InOrder (before ++ raw ++ rest) before.length
      (if PyStr.strip raw = [] then us
      else
        { text := PyStr.strip raw
          start := (PyStr.find (before ++ raw ++ rest) (PyStr.strip raw) before.length).getD
            before.length
          stop := (PyStr.find (before ++ raw ++ rest) (PyStr.strip raw) before.length).getD
            before.length + (PyStr.strip raw).length } :: us) := by
  have hslice := PyStr.slice_append before raw rest
  by_cases hnil : PyStr.strip raw = []
  · -- a blank block is skipped
    rw [if_pos hnil]
    refine hrest.weaken (Nat.le_add_right _ _) (by simp) ?_
    rw [BlankBetween, hslice]
    exact PyStr.strip_eq_nil_iff.mp hnil
  · rw [if_neg hnil]
    obtain ⟨lead, trail, hraw, hlead, htrail⟩ := PyStr.exists_append_strip raw
    have hpattern : lead = [] ∨ ∃ c tail, PyStr.strip raw = c :: tail ∧ PyStr.isSpace c = false := by
      obtain ⟨c, tail, hcons⟩ := List.exists_cons_of_ne_nil hnil
      exact .inr ⟨c, tail, hcons, PyStr.isSpace_head_strip hcons⟩
    have htext : before ++ raw ++ rest = before ++ lead ++ PyStr.strip raw ++ (trail ++ rest) := by
      conv_lhs => rw [hraw]
      simp only [List.append_assoc]
    have hlen : raw.length = lead.length + (PyStr.strip raw).length + trail.length := by
      rw [← List.length_append, ← List.length_append, ← hraw]
    rw [htext, PyStr.find_eq_some before (trail ++ rest) hlead hpattern, Option.getD_some]
    rw [htext] at hrest hslice
    refine inOrder_cons before (PyStr.strip raw) (trail ++ rest) us hlead (hrest.weaken (by omega) ?_ ?_)
    · simp only [List.length_append]
      omega
    · -- behind the paragraph there is only whitespace in the block
      have h := PyStr.slice_append (before ++ lead ++ PyStr.strip raw) trail rest
      have hstop : (before ++ lead ++ PyStr.strip raw).length =
          before.length + lead.length + (PyStr.strip raw).length := by
        simp only [List.length_append]
      rw [List.append_assoc _ trail rest, hstop] at h
      rw [BlankBetween, hlen, ← Nat.add_assoc, ← Nat.add_assoc, h]
      exact htrail

/-- The scan finds the paragraphs of what is left of the text at their places. -/
theorem paragraphSpansFrom_inOrder (before text : List Char) :
    InOrder (before ++ text) before.length
      (paragraphSpansFrom (before ++ text) before.length (splitBlocks text)) := by
  induction hn : text.length using Nat.strongRecOn generalizing before text with
  | _ n ih =>
    rcases splitBlocks_cases text with hone | ⟨raw, rest, htext, hsplit⟩
    · have h := inOrder_block before text [] [] trivial
      rw [List.append_nil] at h
      rw [hone]
      exact h
    · -- on the length of the text: the rest behind the separator is shorter
      have hlt : rest.length < n := by
        rw [← hn, htext]
        simp only [List.length_append, List.length_cons]
        omega
      have hrest := ih rest.length hlt (before ++ raw ++ ['\n', '\n']) rest rfl
      have heq : before ++ raw ++ ['\n', '\n'] ++ rest = before ++ text := by
        rw [htext]
        simp only [List.append_assoc]
      have hlen : (before ++ raw ++ ['\n', '\n']).length = before.length + raw.length + 2 := by
        simp only [List.length_append, List.length_cons, List.length_nil]
      rw [heq, hlen] at hrest
      have heq' : before ++ text = before ++ raw ++ (['\n', '\n'] ++ rest) := by
        rw [htext]
        simp only [List.append_assoc]
      have hle : before.length + raw.length + 2 ≤ (before ++ text).length := by
        rw [heq']
        simp only [List.length_append, List.length_cons, List.length_nil]
        omega
      -- between a block and the next one there is the separator only
      have hblank : BlankBetween (before ++ text) (before.length + raw.length)
          (before.length + raw.length + 2) := by
        have h := PyStr.slice_append (before ++ raw) ['\n', '\n'] rest
        rw [heq, List.length_append] at h
        rw [BlankBetween, show before.length + raw.length + 2 =
          before.length + raw.length + ['\n', '\n'].length from rfl, h]
        intro c hc
        rcases List.mem_cons.mp hc with rfl | hc
        · rfl
        · rw [List.mem_singleton.mp hc]
          rfl
      have h := inOrder_block before raw (['\n', '\n'] ++ rest)
        (paragraphSpansFrom (before ++ text) (before.length + raw.length + 2) (splitBlocks rest))
        (heq' ▸ hrest.weaken (Nat.le_add_right _ _) hle hblank)
      rw [← heq'] at h
      rw [hsplit]
      exact h

/-- The paragraphs of a text stand in it in order. -/
theorem paragraphSpans_inOrder (text : List Char) : InOrder text 0 (paragraphSpans text) := by
  simpa [paragraphSpans] using paragraphSpansFrom_inOrder [] text

/-- No paragraph is empty. -/
theorem ne_nil_of_mem_paragraphSpansFrom {text : List Char} {blockStart : Nat}
    {raws : List (List Char)} {u : TextSpan} (h : u ∈ paragraphSpansFrom text blockStart raws) :
    ∃ raw, u.text = PyStr.strip raw ∧ u.text ≠ [] := by
  induction raws generalizing blockStart with
  | nil => cases h
  | cons raw raws ih =>
    simp only [paragraphSpansFrom] at h
    split at h
    · exact ih h
    · rename_i hne
      rcases List.mem_cons.mp h with rfl | h
      · exact ⟨raw, rfl, hne⟩
      · exact ih h

end Inherent
