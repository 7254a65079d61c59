import Inherent.ForStd.MaximalRuns
import Inherent.ForStd.SeparatedJoin
import Inherent.Native.SubtitleText

/-!
# The blocks of a subtitle file

A subtitle file is made of blocks between blank lines, with any mix of line ends.
`parseSubtitleCues_eq` says that the parser reads these blocks, each as the pieces of its lines.
-/

namespace Inherent

/-! ## Files -/

/-- The lines of a file with any mix of line ends. -/
def universalLines : List Char → List (List Char)
  | [] => [[]]
  | '\r' :: '\n' :: rest => [] :: universalLines rest
  | c :: rest =>
    if c = '\r' ∨ c = '\n' then [] :: universalLines rest
    else (universalLines rest).modifyHead (c :: ·)

/-- A line with nothing but whitespace. -/
def isBlankLine (line : List Char) : Bool := line.all PyStr.isSpace

/-- The blocks of a file: lines between blank lines. -/
def fileBlocks (text : List Char) : List (List (List Char)) :=
  MaximalRuns.runs isBlankLine (universalLines text)

/-- The pieces of a line between the characters that end lines in Unicode. -/
def linePieces (line : List Char) : List (List Char) :=
  (line.splitOnP PyStr.isLineBreak).filter fun piece => !isBlankLine piece

/-! ## Finding the blocks -/

/-- A character that is no carriage return before a newline is read by itself. -/
theorem normalizeNewlines_cons {c : Char} {rest : List Char}
    (h : ∀ after, c = '\r' → rest = '\n' :: after → False) :
    normalizeNewlines (c :: rest) = (if c = '\r' then '\n' else c) :: normalizeNewlines rest := by
  have hcut : PyStr.replaceCrLf (c :: rest) = c :: PyStr.replaceCrLf rest := by
    rw [PyStr.replaceCrLf]
    exact h
  rw [normalizeNewlines, hcut, PyStr.replaceChar, List.flatMap_cons]
  split <;> rfl

theorem universalLines_eq (text : List Char) :
    universalLines text = (normalizeNewlines text).splitOn '\n' := by
  induction text using universalLines.induct with
  | case1 => rfl
  | case2 rest ih =>
    have hcut : normalizeNewlines ('\r' :: '\n' :: rest) = '\n' :: normalizeNewlines rest := rfl
    -- the pair is one newline
    rw [universalLines, ih, hcut, List.splitOn_cons_eq_if_modifyHead]
    rfl
  | case3 c rest hne hend ih =>
    have hnewline : (if c = '\r' then '\n' else c) = '\n' := by grind
    rw [universalLines, if_pos hend, ih, normalizeNewlines_cons hne, hnewline,
      List.splitOn_cons_eq_if_modifyHead]
    · rfl
    · exact hne
  | case4 c rest hne hend ih =>
    have hkept : (if c = '\r' then '\n' else c) = c := by grind
    have hc : (c == '\n') = false := by grind
    rw [universalLines, if_neg hend, ih, normalizeNewlines_cons hne, hkept,
      List.splitOn_cons_eq_if_modifyHead, hc]
    · rfl
    · exact hne

/-- The lines of a text that are not blank. -/
def spokenLines (text : List Char) : List (List Char) :=
  (text.splitOn '\n').filter fun line => !isBlankLine line

theorem subtitleBlocksFrom_drop (skip : Nat) (text : List Char) :
    subtitleBlocksFrom skip text = subtitleBlocksFrom 0 (text.drop skip) :=
  SeparatedJoin.skip_eq_drop (fun _ _ _ => rfl) (fun _ => rfl) skip text

theorem subtitleBlocksFrom_ne_nil (skip : Nat) (text : List Char) :
    subtitleBlocksFrom skip text ≠ [] := by
  induction text generalizing skip with
  | nil => simp [subtitleBlocksFrom]
  | cons c rest ih =>
    cases skip with
    | succ skip => exact ih skip
    | zero =>
      rw [subtitleBlocksFrom]
      split
      · simp
      · simpa using ih 0

theorem separatorLength?_eq_some {text : List Char} {n : Nat}
    (h : separatorLength? text = some n) :
    ∃ blank, (∀ c ∈ blank, PyStr.isSpace c = true) ∧ text = blank ++ '\n' :: text.drop n := by
  simp only [separatorLength?] at h
  split at h
  · next hmem =>
    cases h
    have hrun := List.takeWhile_append_dropWhile (p := PyStr.isSpace) (l := text)
    have hspace : ∀ c ∈ text.takeWhile PyStr.isSpace, PyStr.isSpace c = true :=
      fun c hc => List.mem_takeWhile_imp hc
    generalize text.takeWhile PyStr.isSpace = run at hmem hrun hspace
    generalize text.dropWhile PyStr.isSpace = after at hrun
    -- the last newline of the run
    have hlast := List.takeWhile_append_dropWhile (p := fun c => c ≠ '\n') (l := run.reverse)
    generalize htail : run.reverse.takeWhile (fun c => c ≠ '\n') = tail at hlast ⊢
    cases hback : run.reverse.dropWhile (fun c => c ≠ '\n') with
    | nil =>
      have hall := List.dropWhile_eq_nil_iff.mp hback '\n' (List.mem_reverse.mpr hmem)
      simp at hall
    | cons c blank =>
      have hc : c = '\n' := by
        have hhead := List.head?_dropWhile_not (fun c => decide (c ≠ '\n')) run.reverse
        rw [hback] at hhead
        simpa using hhead
      rw [hback, hc] at hlast
      have hrun' : run = blank.reverse ++ '\n' :: tail.reverse := by
        rw [← List.reverse_reverse run, ← hlast]
        simp
      have hin : ∀ d ∈ blank.reverse, d ∈ run := fun d hd => by
        rw [hrun']
        exact List.mem_append_left _ hd
      refine ⟨blank.reverse, fun d hd => hspace d (hin d hd), ?_⟩
      rw [← hrun, hrun']
      have hlen : (blank.reverse ++ '\n' :: tail.reverse).length - tail.length =
          (blank.reverse ++ ['\n']).length := by
        simp
        omega
      rw [hlen, List.append_assoc, List.cons_append, List.append_cons, List.drop_left,
        ← List.append_cons]
  · cases h

theorem separatorLength?_eq_none {text : List Char} (h : separatorLength? text = none) :
    '\n' ∉ text.takeWhile PyStr.isSpace := by
  simp only [separatorLength?] at h
  split at h
  · cases h
  · next hmem => exact hmem

theorem spokenLines_append_newline {line : List Char} (h : '\n' ∉ line) (text : List Char) :
    spokenLines (line ++ '\n' :: text) =
      ([line].filter fun line => !isBlankLine line) ++ spokenLines text := by
  rw [spokenLines, List.splitOn_append_cons_self, List.splitOn_eq_singleton h,
    List.filter_append]
  rfl

theorem spokenLines_of_newline_notMem {line : List Char} (h : '\n' ∉ line) :
    spokenLines line = [line].filter fun line => !isBlankLine line := by
  rw [spokenLines, List.splitOn_eq_singleton h]

/-- A line that is followed by a newline is not blank if no newline is among the whitespace. -/
theorem isBlankLine_of_newline {line rest : List Char}
    (h : '\n' ∉ (line ++ '\n' :: rest).takeWhile PyStr.isSpace) : isBlankLine line = false := by
  by_contra hblank
  rw [Bool.not_eq_false, isBlankLine, List.all_eq_true] at hblank
  rw [List.takeWhile_append_of_pos hblank] at h
  have hspace : PyStr.isSpace '\n' = true := by decide
  simp [hspace] at h

/-- The blocks of a text are the runs of lines that are not blank, behind the lines `done` of the
    block that is read and the beginning `cur` of its last line. -/
theorem runs_subtitleBlocksFrom (rest : List Char) (done : List (List Char)) (cur : List Char)
    (hcur : '\n' ∉ cur) (hdone : ∀ line ∈ done.tail, isBlankLine line = false)
    (hopen : done ≠ [] → '\n' ∉ (cur ++ rest).takeWhile PyStr.isSpace) {first : List Char}
    {blocks : List (List Char)} (hblocks : subtitleBlocksFrom 0 rest = first :: blocks) :
    (((done.filter fun line => !isBlankLine line) ++ spokenLines (cur ++ first)) ::
        blocks.map spokenLines).filter (fun block => !block.isEmpty) =
      MaximalRuns.runs isBlankLine (done ++ (cur ++ rest).splitOn '\n') := by
  -- a block is closed: only its first and its last line may be blank
  have hclosed : (((done.filter fun line => !isBlankLine line) ++ spokenLines cur) :: []).filter
      (fun block => !block.isEmpty) = MaximalRuns.runs isBlankLine (done ++ [cur]) := by
    rw [MaximalRuns.runs_of_interior, List.filter_append, spokenLines_of_newline_notMem hcur]
    cases done with
    | nil => simp
    | cons line done =>
      rw [List.cons_append, List.tail_cons, List.dropLast_concat]
      exact hdone
  match rest with
  | [] =>
    cases hblocks
    simpa [List.splitOn_eq_singleton hcur] using hclosed
  | c :: rest =>
    rw [subtitleBlocksFrom] at hblocks
    split at hblocks
    · next n hn =>
      split at hn
      · next hc =>
        subst hc
        obtain ⟨blank, hblank, hrest⟩ := separatorLength?_eq_some hn
        cases hblocks
        -- the block ends here: the separator is made of blank lines
        have hlines : (cur ++ '\n' :: rest).splitOn '\n' =
            [cur] ++ blank.splitOn '\n' ++ (rest.drop n).splitOn '\n' := by
          rw [List.splitOn_append_cons_self, List.splitOn_eq_singleton hcur]
          conv_lhs => rw [hrest]
          rw [List.splitOn_append_cons_self, List.append_assoc]
        have hall : ∀ line ∈ blank.splitOn '\n', isBlankLine line = true := fun line hline =>
          List.all_eq_true.mpr fun c hc =>
            hblank c ((MaximalRuns.infix_of_mem_splitOnP hline).subset hc)
        obtain ⟨head, tail, hcut⟩ :=
          List.exists_cons_of_ne_nil (subtitleBlocksFrom_ne_nil 0 (rest.drop n))
        have hlater :=
          runs_subtitleBlocksFrom (rest.drop n) [] [] (by simp) (by simp) (by simp) hcut
        rw [hlines, ← List.append_assoc, ← List.append_assoc,
          MaximalRuns.runs_append_append (by simp) hall, ← hclosed, subtitleBlocksFrom_drop, hcut,
          List.append_nil, ← List.singleton_append, List.filter_append]
        exact congrArg _ hlater
      · cases hn
    · next hn =>
      obtain ⟨head, tail, hcut⟩ := List.exists_cons_of_ne_nil (subtitleBlocksFrom_ne_nil 0 rest)
      rw [hcut] at hblocks
      cases hblocks
      by_cases hc : c = '\n'
      · subst hc
        -- a newline in the block: no blank line begins behind it
        have hclear := separatorLength?_eq_none (by simpa using hn)
        have hnext := runs_subtitleBlocksFrom rest (done ++ [cur]) [] (by simp) (by
            cases done with
            | nil => simp
            | cons line done =>
              intro other hother
              rcases List.mem_append.mp hother with hother | hother
              · exact hdone other hother
              · rw [List.mem_singleton.mp hother]
                exact isBlankLine_of_newline (hopen (by simp))) (fun _ => hclear) hcut
        rw [List.splitOn_append_cons_self, List.splitOn_eq_singleton hcur, ← List.append_assoc,
          spokenLines_append_newline hcur, ← List.append_assoc, ← List.filter_append]
        exact hnext
      · have hcur' : '\n' ∉ cur ++ [c] := by simp [hcur, Ne.symm hc]
        have hnext := runs_subtitleBlocksFrom rest done (cur ++ [c]) hcur' hdone
          (by simpa using hopen) hcut
        simpa using hnext
termination_by rest.length

theorem isBlankLine_iff {line : List Char} : isBlankLine line = true ↔ PyStr.strip line = [] := by
  rw [PyStr.strip_eq_nil_iff, isBlankLine, List.all_eq_true]
  rfl

theorem decide_strip_ne_nil (line : List Char) :
    decide (PyStr.strip line ≠ []) = !isBlankLine line := by
  rw [Bool.eq_iff_iff, Bool.not_eq_true', ← Bool.not_eq_true, isBlankLine_iff, decide_eq_true_iff]

/-- A line with nothing to say has no pieces. -/
theorem linePieces_of_blank {line : List Char} (h : isBlankLine line = true) :
    linePieces line = [] := by
  rw [linePieces, List.filter_eq_nil_iff]
  intro piece hpiece
  have hpart := MaximalRuns.infix_of_mem_splitOnP hpiece
  have hall : isBlankLine piece = true :=
    List.all_eq_true.mpr fun c hc => List.all_eq_true.mp h c (hpart.subset hc)
  simp [hall]

/-- The lines that the parser sees in a block are the pieces of its lines. -/
theorem filter_lines_eq (block : List Char) :
    ((PyStr.lines block).filter fun line => PyStr.strip line ≠ []) =
      (spokenLines block).flatMap linePieces := by
  have hblock : PyStr.join ['\n'] (block.splitOn '\n') = block := List.intercalate_splitOn _
  -- the line ends of Unicode cut every line into pieces
  rw [PyStr.filter_lines]
  conv_lhs => rw [← hblock]
  rw [PyStr.splitOnP_join_newline (by simp), List.filter_flatMap, spokenLines]
  induction block.splitOn '\n' with
  | nil => rfl
  | cons line lines ih =>
    rw [List.flatMap_cons, ih]
    have hpieces : ((line.splitOnP PyStr.isLineBreak).filter fun piece =>
        PyStr.strip piece ≠ []) = linePieces line :=
      List.filter_congr fun piece _ => decide_strip_ne_nil piece
    rw [hpieces]
    cases hline : isBlankLine line with
    | true => simp [hline, linePieces_of_blank hline]
    | false => simp [hline]

/-- Blocks are what `cues` reads; a block with no lines has none. -/
theorem filterMap_runs {β : Type} {f : List (List Char) → Option β} (hf : f [] = none)
    (blocks : List (List (List Char))) :
    (blocks.filter fun block => !block.isEmpty).filterMap f = blocks.filterMap f := by
  induction blocks with
  | nil => rfl
  | cons block blocks ih =>
    cases block with
    | nil => simp [hf, ih]
    | cons line block => simp [List.filterMap_cons, ih]

/-- The parser reads the blocks of the file. -/
theorem parseSubtitleCues_eq (text : List Char) :
    parseSubtitleCues text =
      (fileBlocks text).filterMap fun block => cueOfLines? (block.flatMap linePieces) := by
  obtain ⟨first, blocks, hcut⟩ :=
    List.exists_cons_of_ne_nil (subtitleBlocksFrom_ne_nil 0 (normalizeNewlines text))
  have hruns := runs_subtitleBlocksFrom (normalizeNewlines text) [] [] (by simp) (by simp) (by simp)
    hcut
  have hblocks : ((subtitleBlocks (normalizeNewlines text)).map spokenLines).filter
      (fun block => !block.isEmpty) = fileBlocks text := by
    rw [subtitleBlocks, hcut, fileBlocks, universalLines_eq]
    exact hruns
  rw [← hblocks, filterMap_runs rfl, List.filterMap_map, parseSubtitleCues]
  simp only [filter_lines_eq]
  rfl

end Inherent
