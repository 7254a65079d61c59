import Inherent.Native.ChunkDispatch
import Inherent.Spec.CharacterSplit

/-!
# Chunks and the token budget

A text that is cut by size has chunks of at most `max_size` characters, and so of at most half as
many words.  Every other strategy keeps a sentence, a paragraph or a heading whole, however long it
is.
-/

namespace Inherent

/-! ## Words -/

/-- A word takes a character, and a blank before the next one. -/
theorem two_mul_wordCount_le (text : List Char) :
    2 * PyStr.wordCount text ≤ text.length + 1 ∧
      ((text.head?.any PyStr.isSpace) = true → 2 * PyStr.wordCount text ≤ text.length) := by
  induction text with
  | nil => simp [PyStr.wordCount]
  | cons c text ih =>
    cases text with
    | nil => by_cases hc : PyStr.isSpace c = true <;> simp [PyStr.wordCount, hc]
    | cons d rest =>
      obtain ⟨hle, hblank⟩ := ih
      rw [PyStr.wordCount]
      simp only [List.length_cons, List.head?_cons, Option.any_some] at hle hblank ⊢
      cases hc : PyStr.isSpace c with
      | true =>
        simp only [Bool.not_true, Bool.false_and, Bool.false_eq_true, if_false]
        omega
      | false =>
        cases hd : PyStr.isSpace d with
        | true =>
          have hrest := hblank hd
          simp only [Bool.not_false, Bool.true_and, if_true, Bool.false_eq_true, false_imp_iff,
            and_true]
          omega
        | false =>
          simp only [Bool.and_false, Bool.false_eq_true, if_false, false_imp_iff, and_true]
          omega

/-- A text of `n` characters has at most `⌈n / 2⌉` words. -/
theorem estimateTokens_le {text : String} {n T : Nat} (hlength : text.toList.length ≤ n)
    (hchars : n ≤ 4 * T) (hwords : 13 * ((n + 1) / 2) ≤ 10 * T) : estimateTokens text ≤ T := by
  have hcount := (two_mul_wordCount_le text.toList).1
  rw [estimateTokens]
  apply max_le <;> omega

/-- `n + 1` words of one letter. -/
def letters : Nat → List Char
  | 0 => ['a']
  | n + 1 => 'a' :: ' ' :: letters n

theorem length_letters (n : Nat) : (letters n).length = 2 * n + 1 := by
  induction n with
  | zero => rfl
  | succ n ih =>
    rw [letters, List.length_cons, List.length_cons, ih]
    omega

theorem exists_letters_eq (n : Nat) :
    (∃ rest, letters n = 'a' :: rest) ∧ ∃ front, letters n = front ++ ['a'] := by
  induction n with
  | zero => exact ⟨⟨[], rfl⟩, [], rfl⟩
  | succ n ih =>
    obtain ⟨-, front, hfront⟩ := ih
    exact ⟨⟨_, rfl⟩, 'a' :: ' ' :: front, by rw [letters, hfront]; rfl⟩

theorem wordCount_letters (n : Nat) : PyStr.wordCount (letters n) = n + 1 := by
  induction n with
  | zero => decide
  | succ n ih =>
    obtain ⟨⟨rest, hrest⟩, -⟩ := exists_letters_eq n
    rw [letters, hrest, PyStr.wordCount, PyStr.wordCount, ← hrest, ih]
    simp only [show PyStr.isSpace 'a' = false by decide, show PyStr.isSpace ' ' = true by decide,
      Bool.not_false, Bool.not_true, Bool.and_true, Bool.and_false, Bool.false_eq_true, if_true,
      if_false]
    omega

/-- A text that neither starts nor ends with whitespace is left as it is. -/
theorem strip_of_ends {c d : Char} {rest front text : List Char} (hstart : text = c :: rest)
    (hend : text = front ++ [d]) (hc : PyStr.isSpace c = false) (hd : PyStr.isSpace d = false) :
    PyStr.strip text = text := by
  have hlstrip : PyStr.lstrip text = text := by
    rw [hstart, PyStr.lstrip, List.dropWhile_cons_of_neg (by simp [hc])]
  rw [PyStr.strip, hlstrip, hend, List.reverse_append, List.reverse_singleton,
    List.singleton_append, PyStr.lstrip, List.dropWhile_cons_of_neg (by simp [hd]),
    List.reverse_cons, List.reverse_reverse]

/-! ## A text that is kept whole -/

/-- A text in which no strategy but that by size finds a place to cut: one line and one sentence,
    a heading of a sheet. -/
structure UncutHeading (text : List Char) : Prop where
  plain : ∀ c ∈ text, endsSentence c = false ∧ PyStr.isLineBreak c = false
  heading : ∃ rest, text = sheetHeadingPrefix ++ rest
  strip : PyStr.strip text = text

namespace UncutHeading

variable {text : List Char}

theorem ne_nil (h : UncutHeading text) : text ≠ [] := by
  obtain ⟨rest, hrest⟩ := h.heading
  rw [hrest]
  exact List.append_ne_nil_of_left_ne_nil (by decide) rest

theorem splitSentences_eq {text : List Char} (h : ∀ c ∈ text, endsSentence c = false) :
    splitSentences text = [text] := by
  unfold splitSentences
  induction text with
  | nil => rfl
  | cons c text ih =>
    have hmode : modeAfter c = .inside := if_neg (by rw [h c List.mem_cons_self]; simp)
    rw [splitSentencesFrom, hmode, ih fun d hd => h d (List.mem_cons_of_mem c hd)]
    rfl

theorem splitBlocks_eq {text : List Char} (h : ∀ c ∈ text, PyStr.isLineBreak c = false) :
    splitBlocks text = [text] := by
  induction text with
  | nil => rfl
  | cons c text ih =>
    cases text with
    | nil => rfl
    | cons d rest =>
      have hc : c ≠ '\n' := by
        intro hc
        have hbreak := h c List.mem_cons_self
        rw [hc] at hbreak
        exact absurd hbreak (by decide)
      rw [splitBlocks, if_neg fun hcd => hc hcd.1, ih fun e he => h e (List.mem_cons_of_mem c he)]
      rfl

theorem rstripNewlines_eq {text : List Char} (h : ∀ c ∈ text, PyStr.isLineBreak c = false) :
    PyStr.rstripNewlines text = text := by
  have hkeep : text.reverse.dropWhile (fun c => c == '\r' || c == '\n') = text.reverse := by
    cases hrev : text.reverse with
    | nil => rfl
    | cons c rest =>
      have hc := h c (List.mem_reverse.mp (hrev ▸ List.mem_cons_self))
      rw [List.dropWhile_cons_of_neg]
      intro hnewline
      rcases Bool.or_eq_true_iff.mp hnewline with hr | hn
      · rw [eq_of_beq hr] at hc
        exact absurd hc (by decide)
      · rw [eq_of_beq hn] at hc
        exact absurd hc (by decide)
  rw [PyStr.rstripNewlines, hkeep, List.reverse_reverse]

/-- A group of the whole text alone. -/
theorem emit_single (h : UncutHeading text) (sep : List Char) (documentId : String)
    {u : TextSpan} (hu : u.text = text) (maxSize : Nat)
    (keep : List TextSpan → List TextSpan × Nat) :
    ∃ c, ((PackState.pack sep documentId maxSize keep {} u).finish sep documentId).chunks = [c] ∧
      c.content = text := by
  have hjoin : PyStr.strip (PyStr.join sep ([u].map TextSpan.text)) = text := by
    rw [List.map_singleton, hu, PyStr.join, List.intercalate_singleton, h.strip]
  have hpack : PackState.pack sep documentId maxSize keep {} u =
      { current := [u], currentSize := u.text.length, sink := {} } := by
    simp [PackState.pack]
  rw [hpack, PackState.finish, if_neg (by simp), ChunkSink.emit, hjoin, if_neg h.ne_nil]
  exact ⟨_, rfl, rfl⟩

theorem chunkBySentences_eq_single (h : UncutHeading text) (documentId : String)
    (maxSize overlap : Nat) :
    ∃ c, chunkBySentences text documentId maxSize overlap = [c] ∧ c.content = text := by
  rw [chunkBySentences, sentenceSpans, splitSentences_eq fun c hc => (h.plain c hc).1]
  simp only [sentenceSpansFrom, List.foldl_cons, List.foldl_nil]
  exact h.emit_single [' '] documentId rfl maxSize _

theorem chunkByParagraphs_eq_single (h : UncutHeading text) (documentId : String)
    (maxSize : Nat) :
    ∃ c, chunkByParagraphs text documentId maxSize = [c] ∧ c.content = text := by
  rw [chunkByParagraphs, paragraphSpans, splitBlocks_eq fun c hc => (h.plain c hc).2,
    paragraphSpansFrom, h.strip, if_neg h.ne_nil]
  simp only [paragraphSpansFrom, List.foldl_cons, List.foldl_nil]
  exact h.emit_single ['\n', '\n'] documentId rfl maxSize _

theorem chunkProse_eq_single (h : UncutHeading text) (documentId : String)
    (maxSize overlap : Nat) :
    ∃ c, chunkProse text documentId maxSize overlap = [c] ∧ c.content = text := by
  have hheader : detectHeaderBlock text = ([], 0) := by
    obtain ⟨rest, hrest⟩ := h.heading
    have hwindow : ∃ tail, text.take maxHeaderBlockScanChars = '#' :: tail :=
      ⟨_, by rw [hrest]; rfl⟩
    obtain ⟨tail, hwindow⟩ := hwindow
    have hbreaks : ∀ c ∈ '#' :: tail, PyStr.isLineBreak c = false := fun c hc =>
      (h.plain c (List.mem_of_mem_take (hwindow ▸ hc))).2
    have hfirst : isHeaderLine ('#' :: tail) = false := by
      rw [isHeaderLine, show Char.isAlpha '#' = false by decide, Bool.false_and, Bool.false_and]
    have hloop : headerLoop ['#' :: tail] [] 0 = ([], 0) := by
      rw [headerLoop]
      simp only [rstripNewlines_eq hbreaks]
      rw [if_neg (List.cons_ne_nil _ _), if_pos hfirst]
    rw [detectHeaderBlock, hwindow, PyStr.splitlines_of_forall (List.cons_ne_nil _ _) hbreaks]
    simp only [hloop]
    rfl
  rw [chunkProse, hheader, if_pos rfl]
  exact h.chunkBySentences_eq_single documentId maxSize overlap

theorem lineEntries_eq (h : UncutHeading text) :
    ∃ e : TextSpan, lineEntries text = [e] ∧ e.text = text := by
  have hbreaks := fun c hc => (h.plain c hc).2
  rw [lineEntries, PyStr.splitlines_of_forall h.ne_nil hbreaks, lineEntriesFrom, rstripNewlines_eq hbreaks]
  exact ⟨_, rfl, rfl⟩

/-- A heading that is the whole text is a chunk. -/
theorem chunks_eq_single (h : UncutHeading text) {κ : Type} (p : LineChunker κ)
    {ctx : κ} (hsection : p.newSection text = some ctx) (documentId : String) (maxSize : Nat)
    (init : κ) : ∃ c, p.chunks documentId maxSize init text = [c] ∧ c.content = text := by
  obtain ⟨e, hentries, he⟩ := h.lineEntries_eq
  have hline : LineState.line p documentId maxSize { ctx := init } e =
      { ctx := ctx, group := { lines := [e], size := e.text.length, hasContext := true } } := by
    rw [LineState.line, he, h.strip, if_neg h.ne_nil, hsection]
    simp only [LineState.startSection, LineState.flush, LineGroup.flush, if_true, he]
  have hbody : PyStr.strip (LineGroup.content
      { lines := [e], size := e.text.length, hasContext := true } (p.context ctx maxSize)) =
        text := by
    rw [LineGroup.content, if_pos (.inr rfl), List.map_singleton, he, PyStr.join,
      List.intercalate_singleton, h.strip]
  rw [LineChunker.chunks, hentries, List.foldl_cons, List.foldl_nil, hline, LineState.flush,
    LineGroup.flush, if_neg (by simp), hbody]
  exact ⟨_, rfl, rfl⟩

theorem startsWith_sheetHeadingPrefix (h : UncutHeading text) :
    PyStr.startsWith text sheetHeadingPrefix = true := by
  obtain ⟨rest, hrest⟩ := h.heading
  rw [PyStr.startsWith, hrest, List.isPrefixOf_iff_prefix]
  exact List.prefix_append _ rest

theorem startsWith_sectionHeadingPrefix (h : UncutHeading text) :
    PyStr.startsWith text sectionHeadingPrefix = true := by
  obtain ⟨rest, hrest⟩ := h.heading
  have hprefixes : sectionHeadingPrefix <+: sheetHeadingPrefix := by decide
  rw [PyStr.startsWith, hrest, List.isPrefixOf_iff_prefix]
  exact hprefixes.trans (List.prefix_append _ rest)

theorem chunkByRows_eq_single (h : UncutHeading text) (documentId : String) (maxSize : Nat) :
    ∃ c, chunkByRows text documentId maxSize = [c] ∧ c.content = text :=
  h.chunks_eq_single rowChunker (if_pos h.startsWith_sheetHeadingPrefix) documentId maxSize {}

theorem chunkBySections_eq_single (h : UncutHeading text) (documentId : String)
    (maxSize overlap : Nat) :
    ∃ c, chunkBySections text documentId maxSize overlap = some [c] ∧ c.content = text := by
  have hmarkers : hasSectionMarkers text = true := by
    obtain ⟨e, hentries, he⟩ := h.lineEntries_eq
    rw [hasSectionMarkers, hentries, List.any_cons, he, h.startsWith_sectionHeadingPrefix,
      Bool.true_or]
  obtain ⟨c, hchunks, hcontent⟩ := h.chunks_eq_single sectionChunker
    (if_pos h.startsWith_sectionHeadingPrefix) documentId maxSize none
  exact ⟨c, by rw [chunkBySections, if_pos hmarkers, hchunks], hcontent⟩

theorem chunk_eq_single (h : UncutHeading text) {strategy : ChunkingStrategy}
    (hstrategy : strategy ≠ .tokens) (documentId : String) (maxSize overlap : Nat) :
    ∃ c, strategy.chunk text documentId maxSize overlap = some [c] ∧ c.content = text := by
  cases strategy with
  | tokens => exact absurd rfl hstrategy
  | sentences =>
    obtain ⟨c, hchunks, hcontent⟩ := h.chunkBySentences_eq_single documentId maxSize overlap
    exact ⟨c, by rw [ChunkingStrategy.chunk, hchunks], hcontent⟩
  | paragraphs =>
    obtain ⟨c, hchunks, hcontent⟩ := h.chunkByParagraphs_eq_single documentId maxSize
    exact ⟨c, by rw [ChunkingStrategy.chunk, hchunks], hcontent⟩

end UncutHeading

/-! ## The budget -/

variable {input : ChunkTextInput} {settings : ChunkingSettings}

theorem ChunkTextInput.maxSize_pos (input : ChunkTextInput) (settings : ChunkingSettings) :
    1 ≤ input.maxSize settings := by
  have hrequested : 1 ≤ input.maxChunkSize.getD settings.maxChunkSize := by
    cases hmax : input.maxChunkSize with
    | none => exact settings.maxChunkSize_pos
    | some n => exact input.maxChunkSize_pos n (by rw [hmax]; rfl)
  exact le_min hrequested (le_max_left 1 _)

theorem ChunkTextInput.maxSize_le (input : ChunkTextInput) (settings : ChunkingSettings) :
    input.maxSize settings ≤ 4 * settings.embeddingMaxTokens := by
  have hpos := settings.embeddingMaxTokens_pos
  have hcap : tokenBudgetCharCap settings.embeddingMaxTokens ≤ 4 * settings.embeddingMaxTokens := by
    unfold tokenBudgetCharCap
    omega
  exact (min_le_right _ _).trans hcap

/-- Texts are cut by size, whatever they hold. -/
def ChunkTextInput.CutBySize (input : ChunkTextInput) (settings : ChunkingSettings) : Prop :=
  match input.strategy with
  | some strategy => strategy = .tokens
  | none =>
    match input.chunkingHint with
    | some .media => True
    | some .code | none => settings.chunkingStrategy = .tokens
    | some .tabular | some .structured | some .prose => False

/-- No text has a staged chunk over the budget. -/
def ChunkTextInput.WithinBudget (input : ChunkTextInput) (settings : ChunkingSettings)
    (search : String → String → Bool) : Prop :=
  ∀ text, ∃ result, chunkTextInner input settings search text = some result ∧
    ∀ chunks, result = .ok chunks →
      ∀ c ∈ chunks, estimateTokens c.content ≤ settings.embeddingMaxTokens

theorem dispatch_of_cutBySize (h : input.CutBySize settings) (text : List Char) :
    ∃ used, input.dispatch settings text =
      (chunkBySize text input.documentId (input.maxSize settings)
        (input.overlap settings)).map fun chunks => (chunks, used) := by
  unfold ChunkTextInput.CutBySize at h
  unfold ChunkTextInput.dispatch
  cases hstrategy : input.strategy with
  | some strategy =>
    rw [hstrategy] at h
    simp only at h ⊢
    rw [h]
    exact ⟨_, rfl⟩
  | none =>
    rw [hstrategy] at h
    simp only at h ⊢
    cases hhint : input.chunkingHint with
    | none =>
      rw [hhint] at h
      simp only at h ⊢
      rw [h]
      exact ⟨_, rfl⟩
    | some hint =>
      rw [hhint] at h
      cases hint with
      | media => exact ⟨_, rfl⟩
      | code =>
        simp only at h ⊢
        rw [h]
        exact ⟨_, rfl⟩
      | prose => exact h.elim
      | tabular => exact h.elim
      | structured => exact h.elim

/-- Any other strategy keeps an uncut heading whole. -/
theorem dispatch_of_uncutHeading (h : ¬ input.CutBySize settings) {text : List Char}
    (htext : UncutHeading text) :
    ∃ c used, input.dispatch settings text = some ([c], used) ∧ c.content = text := by
  unfold ChunkTextInput.CutBySize at h
  unfold ChunkTextInput.dispatch
  cases hstrategy : input.strategy with
  | some strategy =>
    rw [hstrategy] at h
    obtain ⟨c, hchunks, hcontent⟩ := htext.chunk_eq_single h input.documentId
      (input.maxSize settings) (input.overlap settings)
    exact ⟨c, strategy.value, by simp only [hchunks, Option.map_some], hcontent⟩
  | none =>
    rw [hstrategy] at h
    -- where the hint does not decide, the strategy is that of the settings
    have hsettings (hglobal : settings.chunkingStrategy ≠ .tokens) : ∃ c used,
        (settings.chunkingStrategy.chunk text input.documentId (input.maxSize settings)
          (input.overlap settings)).map (fun chunks =>
            (chunks, settings.chunkingStrategy.value)) = some ([c], used) ∧ c.content = text := by
      obtain ⟨c, hchunks, hcontent⟩ := htext.chunk_eq_single hglobal input.documentId
        (input.maxSize settings) (input.overlap settings)
      exact ⟨c, settings.chunkingStrategy.value, by rw [hchunks, Option.map_some], hcontent⟩
    cases hhint : input.chunkingHint with
    | none =>
      rw [hhint] at h
      exact hsettings h
    | some hint =>
      rw [hhint] at h
      cases hint with
      | media => exact absurd trivial h
      | code => exact hsettings h
      | prose =>
        obtain ⟨c, hchunks, hcontent⟩ := htext.chunkProse_eq_single input.documentId
          (input.maxSize settings) (input.overlap settings)
        exact ⟨c, _, congrArg (fun chunks => some (chunks, _)) hchunks, hcontent⟩
      | tabular =>
        obtain ⟨c, hchunks, hcontent⟩ := htext.chunkByRows_eq_single input.documentId
          (input.maxSize settings)
        exact ⟨c, _, congrArg (fun chunks => some (chunks, _)) hchunks, hcontent⟩
      | structured =>
        obtain ⟨c, hchunks, hcontent⟩ := htext.chunkBySections_eq_single input.documentId
          (input.maxSize settings) (input.overlap settings)
        exact ⟨c, _, congrArg (Option.map _) hchunks, hcontent⟩

@[simp] theorem ChunkData.content_staged (search : String → String → Bool) (used : String)
    (c : ChunkData) : (c.staged search used).content = String.ofList c.content := rfl

/-- A chunk over the budget that is dispatched is staged. -/
theorem not_withinBudget_of_dispatch {text : List Char} {chunks : List ChunkData} {used : String}
    (search : String → String → Bool) (hne : text ≠ [])
    (hdispatch : input.dispatch settings text = some (chunks, used)) {c : ChunkData}
    (hc : c ∈ chunks)
    (hover : settings.embeddingMaxTokens < estimateTokens (String.ofList c.content)) :
    ¬ input.WithinBudget settings search := by
  intro hwithin
  obtain ⟨result, hresult, hfits⟩ := hwithin (String.ofList text)
  have hstaged : result = .ok (chunks.map (ChunkData.staged search used)) := by
    rw [chunkTextInner, String.toList_ofList, if_neg hne, hdispatch, Option.map_some] at hresult
    simp only at hresult
    rw [if_neg (List.ne_nil_of_mem hc)] at hresult
    exact (Option.some.inj hresult).symm
  exact absurd (hfits _ hstaged _ (List.mem_map_of_mem hc)) (Nat.not_le.mpr hover)

/-- A heading with a name of one letter, `n` times. -/
def longHeading (n : Nat) : List Char := sheetHeadingPrefix ++ List.replicate n 'a'

theorem uncutHeading_longHeading {n : Nat} (hn : 1 ≤ n) : UncutHeading (longHeading n) where
  plain c hc := by
    have hall : (sheetHeadingPrefix.all fun d => !endsSentence d && !PyStr.isLineBreak d) = true := by
      decide
    have hheading : ∀ d ∈ sheetHeadingPrefix,
        endsSentence d = false ∧ PyStr.isLineBreak d = false := fun d hd => by
      simpa using List.all_eq_true.mp hall d hd
    rcases List.mem_append.mp hc with hc | hc
    · exact hheading c hc
    · rw [(List.mem_replicate.mp hc).2]
      decide
  heading := ⟨_, rfl⟩
  strip := by
    obtain ⟨n, rfl⟩ : ∃ k, n = k + 1 := ⟨n - 1, by omega⟩
    have hstart : longHeading (n + 1) =
        '#' :: (sheetHeadingPrefix.tail ++ List.replicate (n + 1) 'a') := rfl
    have hend : longHeading (n + 1) = sheetHeadingPrefix ++ List.replicate n 'a' ++ ['a'] := by
      rw [longHeading, List.replicate_succ', List.append_assoc]
    exact strip_of_ends hstart hend (by decide) (by decide)

theorem not_withinBudget_of_not_cutBySize (h : ¬ input.CutBySize settings)
    (search : String → String → Bool) : ¬ input.WithinBudget settings search := by
  have hpos := settings.embeddingMaxTokens_pos
  have hheading := uncutHeading_longHeading
    (n := 4 * settings.embeddingMaxTokens) (by omega)
  obtain ⟨c, used, hdispatch, hcontent⟩ := dispatch_of_uncutHeading h hheading
  apply not_withinBudget_of_dispatch search hheading.ne_nil hdispatch List.mem_cons_self
  have hlength : (longHeading (4 * settings.embeddingMaxTokens)).length =
      9 + 4 * settings.embeddingMaxTokens := by
    rw [longHeading, List.length_append, List.length_replicate]
    rfl
  rw [estimateTokens, String.toList_ofList, hcontent, hlength]
  exact lt_max_of_lt_right (by omega)

/-- Where texts are cut by size, one-letter words as many as fit into a chunk are one. -/
theorem not_withinBudget_of_words (h : input.CutBySize settings)
    (hwords : 10 * settings.embeddingMaxTokens < 13 * ((input.maxSize settings + 1) / 2))
    (search : String → String → Bool) : ¬ input.WithinBudget settings search := by
  have hpos := input.maxSize_pos settings
  obtain ⟨k, hk⟩ : ∃ k, (input.maxSize settings + 1) / 2 = k + 1 :=
    ⟨(input.maxSize settings + 1) / 2 - 1, by omega⟩
  have hlength := length_letters k
  obtain ⟨⟨rest, hstart⟩, front, hend⟩ := exists_letters_eq k
  have hstrip : PyStr.strip (letters k) = letters k :=
    strip_of_ends hstart hend (by decide) (by decide)
  have hne : letters k ≠ [] := by
    rw [hstart]
    exact List.cons_ne_nil _ _
  obtain ⟨used, hdispatch⟩ := dispatch_of_cutBySize h (letters k)
  obtain ⟨chunks, hchunks, -, hpieces⟩ := chunkBySize_eq (letters k) input.documentId
    (input.overlap settings) hpos
  rw [hchunks, Option.map_some] at hdispatch
  have hfirst : (String.ofList (letters k), 0, (letters k).length) ∈
      splitLoop (letters k) (input.maxSize settings) (input.overlap settings)
        (letters k).length 0 := by
    rw [splitLoop_short hne (by omega), hstrip, if_neg hne]
    exact List.mem_append_left _ List.mem_cons_self
  rw [← hpieces] at hfirst
  obtain ⟨c, hc, hpiece⟩ := List.mem_map.mp hfirst
  have hcontent : String.ofList c.content = String.ofList (letters k) := congrArg Prod.fst hpiece
  apply not_withinBudget_of_dispatch search hne hdispatch hc
  rw [hcontent, estimateTokens, String.toList_ofList, wordCount_letters]
  exact lt_max_of_lt_left (by omega)

theorem withinBudget_of_cutBySize (h : input.CutBySize settings)
    (hwords : 13 * ((input.maxSize settings + 1) / 2) ≤ 10 * settings.embeddingMaxTokens)
    (search : String → String → Bool) : input.WithinBudget settings search := by
  intro text
  obtain ⟨used, hdispatch⟩ := dispatch_of_cutBySize h text.toList
  obtain ⟨chunks, hchunks, hindex, hpieces⟩ := chunkBySize_eq text.toList input.documentId
    (input.overlap settings) (input.maxSize_pos settings)
  have hsplits := splitsBySize_of_pieces (input.maxSize_pos settings) hindex hpieces
  unfold chunkTextInner
  by_cases hne : text.toList = []
  · rw [if_pos hne]
    exact ⟨_, rfl, fun staged hstaged c hc => by
      rw [← Except.ok.inj hstaged] at hc
      cases hc⟩
  · rw [if_neg hne, hdispatch, hchunks, Option.map_some, Option.map_some]
    refine ⟨_, rfl, fun staged hstaged c hc => ?_⟩
    simp only at hstaged
    by_cases hnone : chunks = []
    · rw [if_pos hnone] at hstaged
      cases hstaged
    · rw [if_neg hnone] at hstaged
      rw [← Except.ok.inj hstaged] at hc
      obtain ⟨d, hd, rfl⟩ := List.mem_map.mp hc
      rw [ChunkData.content_staged]
      exact estimateTokens_le (by rw [String.toList_ofList]; exact hsplits.length d hd)
        (input.maxSize_le settings) hwords

/-- For every input and setting, no text has a chunk over the token budget exactly when texts are
    cut by size and half of `max_size`, rounded up, is a number of words within the budget. -/
theorem withinBudget_iff (input : ChunkTextInput) (settings : ChunkingSettings)
    (search : String → String → Bool) :
    input.WithinBudget settings search ↔
      input.CutBySize settings ∧
        13 * ((input.maxSize settings + 1) / 2) ≤ 10 * settings.embeddingMaxTokens := by
  constructor
  · intro hwithin
    by_cases hcut : input.CutBySize settings
    · refine ⟨hcut, ?_⟩
      by_contra hwords
      exact not_withinBudget_of_words hcut (Nat.not_le.mp hwords) search hwithin
    · exact absurd hwithin (not_withinBudget_of_not_cutBySize hcut search)
  · rintro ⟨hcut, hwords⟩
    exact withinBudget_of_cutBySize hcut hwords search

/-- The settings that are not set otherwise. -/
def defaultChunking : ChunkingSettings where
  maxChunkSize_pos := by decide
  embeddingMaxTokens_pos := by decide

/-- A document that is to be cut by size. -/
def tokensInput : ChunkTextInput where
  documentId := "d"
  strategy := some .tokens
  maxChunkSize_pos := by simp

/-- With the default settings a chunk has 787 characters at most, and with 394 words of one letter
    each more than 512 tokens. -/
theorem not_withinBudget_default :
    ¬ tokensInput.WithinBudget defaultChunking fun _ _ => false :=
  not_withinBudget_of_words (show tokensInput.CutBySize defaultChunking from rfl) (by decide) _

example : estimateTokens (String.ofList (letters 393)) = 513 := by
  rw [estimateTokens, String.toList_ofList, wordCount_letters, length_letters]
  rfl

end Inherent

/-!
## The character cap and the token budget

`_token_budget_char_cap` takes a text of `n` characters to have `n / 2` words at most.  One that
begins and ends with a word has one word more than it has blanks, and that is where the estimate of
a text within the cap gets over the budget.
-/

namespace Inherent

/-! ## Texts with the most words -/

/-- Words of one character, with one blank between two of them. -/
def SingleLetterWords : List Char → Prop
  | [] => False
  | [c] => PyStr.isSpace c = false
  | c :: d :: rest => PyStr.isSpace c = false ∧ PyStr.isSpace d = true ∧ SingleLetterWords rest

instance SingleLetterWords.instDecidable : ∀ text, Decidable (SingleLetterWords text)
  | [] => .isFalse not_false
  | [c] => inferInstanceAs (Decidable (PyStr.isSpace c = false))
  | c :: d :: rest =>
    have := SingleLetterWords.instDecidable rest
    inferInstanceAs (Decidable (PyStr.isSpace c = false ∧ PyStr.isSpace d = true ∧ _))

/-- A blank at the start is no part of a word. -/
theorem wordCount_cons_space {c : Char} (hc : PyStr.isSpace c = true) (rest : List Char) :
    PyStr.wordCount (c :: rest) = PyStr.wordCount rest := by
  cases rest with
  | nil => simp [PyStr.wordCount, hc]
  | cons d rest => simp [PyStr.wordCount, hc]

/-- No text has more words for its length than one of words of one character. -/
theorem two_mul_wordCount_eq_iff (text : List Char) :
    2 * PyStr.wordCount text = text.length + 1 ↔ SingleLetterWords text := by
  induction text using SingleLetterWords.induct with
  | case1 => simp [SingleLetterWords, PyStr.wordCount]
  | case2 c => cases hc : PyStr.isSpace c <;> simp [SingleLetterWords, PyStr.wordCount, hc]
  | case3 c d rest ih =>
    have hrest := (two_mul_wordCount_le rest).1
    have htail := (two_mul_wordCount_le (d :: rest)).1
    rw [SingleLetterWords, ← ih, PyStr.wordCount]
    simp only [List.length_cons] at htail ⊢
    cases hc : PyStr.isSpace c with
    | true =>
      -- without the blank there is room for fewer words
      simp only [Bool.not_true, Bool.false_and, Bool.false_eq_true, if_false, Bool.true_eq_false,
        false_and, iff_false]
      omega
    | false =>
      cases hd : PyStr.isSpace d with
      | true =>
        rw [wordCount_cons_space hd]
        simp only [Bool.not_false, Bool.and_self, if_true, true_and]
        omega
      | false =>
        -- the first word goes on
        simp only [Bool.not_false, Bool.and_false, Bool.false_eq_true, if_false, false_and, and_false,
          iff_false]
        omega

theorem SingleLetterWords.length_odd {text : List Char} (h : SingleLetterWords text) :
    text.length % 2 = 1 := by
  have := (two_mul_wordCount_eq_iff text).mpr h
  omega

theorem singleLetterWords_letters (n : Nat) : SingleLetterWords (letters n) := by
  rw [← two_mul_wordCount_eq_iff, wordCount_letters, length_letters]
  omega

/-! ## The cap -/

/-- The branch of the words is the smaller one. -/
theorem tokenBudgetCharCap_eq {T : Nat} (hT : 1 ≤ T) : tokenBudgetCharCap T = 20 * T / 13 := by
  unfold tokenBudgetCharCap
  omega

/-- Only the words of a text within the cap can be too many. -/
theorem estimateTokens_le_iff_wordCount {T : Nat} (hT : 1 ≤ T) {text : String}
    (hcap : text.toList.length ≤ tokenBudgetCharCap T) :
    estimateTokens text ≤ T ↔ 13 * PyStr.wordCount text.toList ≤ 10 * T := by
  rw [tokenBudgetCharCap_eq hT] at hcap
  -- the estimate by characters is within the budget wherever the cap holds
  rw [estimateTokens, max_le_iff]
  omega

/-- For every budget and every text within the cap of the budget, the estimate of the text is over
    the budget exactly when the text has as many characters as the cap and is words of one character
    with one blank between them.  A budget has no such text exactly when its cap is even. -/
theorem estimateTokens_le_iff_of_le_cap {T : Nat} (hT : 1 ≤ T) :
    (∀ text : String, text.toList.length ≤ tokenBudgetCharCap T →
      (estimateTokens text ≤ T ↔
        ¬ (text.toList.length = 20 * T / 13 ∧ SingleLetterWords text.toList))) ∧
      ((∀ text : String, text.toList.length ≤ tokenBudgetCharCap T → estimateTokens text ≤ T) ↔
        20 * T / 13 % 2 = 0) := by
  have hover (text : String) (hcap : text.toList.length ≤ tokenBudgetCharCap T) :
      estimateTokens text ≤ T ↔
        ¬ (text.toList.length = 20 * T / 13 ∧ SingleLetterWords text.toList) := by
    have hcount := (two_mul_wordCount_le text.toList).1
    rw [estimateTokens_le_iff_wordCount hT hcap, ← two_mul_wordCount_eq_iff]
    rw [tokenBudgetCharCap_eq hT] at hcap
    omega
  refine ⟨hover, ?_⟩
  constructor
  · intro hall
    -- under an odd cap, one-letter words of that many characters are a word too many
    by_contra hodd
    have hlength : (letters (20 * T / 13 / 2)).length = 20 * T / 13 := by
      rw [length_letters]
      omega
    have hfits := hall (String.ofList (letters (20 * T / 13 / 2)))
    rw [String.toList_ofList, tokenBudgetCharCap_eq hT] at hfits
    have hnot := (hover _ (by rw [String.toList_ofList, hlength, tokenBudgetCharCap_eq hT])).mp
      (hfits hlength.le)
    rw [String.toList_ofList] at hnot
    exact hnot ⟨hlength, singleLetterWords_letters _⟩
  · intro heven text hcap
    rw [hover text hcap]
    rintro ⟨hlength, hwords⟩
    have := hwords.length_odd
    omega

/-- Texts within the cap of 512 tokens are over the budget when they are words of one letter. -/
theorem estimateTokens_le_iff_of_le_cap_512 :
    1 ≤ 512 ∧ ¬ ∀ text : String, text.toList.length ≤ tokenBudgetCharCap 512 →
      estimateTokens text ≤ 512 :=
  ⟨by decide, fun hall => absurd
    ((estimateTokens_le_iff_of_le_cap (by decide : 1 ≤ 512)).2.mp hall) (by decide)⟩

/-- Two words of one letter are within the cap of two tokens, and take three. -/
theorem not_estimateTokens_le_two :
    ¬ ∀ T : Nat, 1 ≤ T → ∀ text : String, text.toList.length ≤ tokenBudgetCharCap T →
      estimateTokens text ≤ T := by
  intro hall
  exact absurd (hall 2 (by decide) "a b" (by decide)) (by decide)

end Inherent
