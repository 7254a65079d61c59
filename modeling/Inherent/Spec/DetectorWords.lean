import Inherent.Native.Redaction

/-!
# What the detectors match

Each pattern of a detector as a language: what is matched is a word of it, and every word of
it is found where the character before it allows a match.  A match of any detector but the
first one has an edge that no key or token can begin behind, and it spares the markers of the
detectors before.
-/

namespace Inherent

open RunPattern (Step Word consume alternatives leading separated)
open Substitution (Matcher Segment before bracketed shown shown_cons originals)

/-! ## Markers -/

/-- What stands between the brackets of the marker of a detector. -/
def Detector.body (d : Detector) : List Char := "redacted:".toList ++ d.name.toList

theorem marker_eq (d : Detector) : marker d.name = bracketed '[' ']' d.body := by
  cases d <;> rfl

/-- What the patterns begin with is not blank, has no brackets, begins with a letter and is
    in no marker. -/
def Spelled (shapes : List (List (Step Char))) : Prop :=
  ∀ steps ∈ shapes, (leading steps).head?.any Char.isAlphanum = true ∧ '[' ∉ leading steps ∧
    ']' ∉ leading steps ∧ ∀ d ∈ builtinDetectors, ¬ leading steps <:+: d.body

/-- No step of the patterns takes a bracket. -/
def Bracketless (shapes : List (List (Step Char))) : Prop :=
  ∀ steps ∈ shapes, ∀ s ∈ steps, ¬ s.Allows '[' ∧ ¬ s.Allows ']'

/-- The words of some patterns. -/
def Words (shapes : List (List (Step Char))) (w : List Char) : Prop :=
  ∃ steps ∈ shapes, Word steps w

theorem spelled_apiKeyShapes : Spelled apiKeyShapes := by
  unfold Spelled
  decide

theorem bracketless_apiKeyShapes : Bracketless apiKeyShapes := by
  unfold Bracketless
  decide

theorem spelled_jwtShape : Spelled [jwtShape] := by
  unfold Spelled
  decide

theorem bracketless_jwtShape : Bracketless [jwtShape] := by
  unfold Bracketless
  decide

theorem spelled_connectionShapes : Spelled (connectionSchemes.map connectionShape) := by
  unfold Spelled
  decide

theorem mem_builtinDetectors (d : Detector) : d ∈ builtinDetectors := by
  cases d <;> decide

/-- A word without brackets that begins as a pattern does. -/
theorem Words.bracketless {shapes : List (List (Step Char))} (h : Bracketless shapes)
    {w : List Char} (hw : Words shapes w) : '[' ∉ w ∧ ']' ∉ w := by
  obtain ⟨steps, hmem, hword⟩ := hw
  constructor
  · intro hin
    obtain ⟨s, hs, hallows⟩ := hword.allows hin
    exact (h steps hmem s hs).1 hallows
  · intro hin
    obtain ⟨s, hs, hallows⟩ := hword.allows hin
    exact (h steps hmem s hs).2 hallows

/-- A word begins with a letter, and is in no marker. -/
theorem Words.starts {shapes : List (List (Step Char))} (h : Spelled shapes) {w : List Char}
    (hw : Words shapes w) :
    (∃ c ∈ w.head?, c.isAlphanum = true) ∧ ∀ d : Detector, ¬ w <:+: d.body := by
  obtain ⟨steps, hmem, hword⟩ := hw
  obtain ⟨hhead, -, -, hbody⟩ := h steps hmem
  have hstarts := hword.leading_isPrefix
  constructor
  · obtain ⟨rest, rfl⟩ := hstarts
    cases hleading : leading steps with
    | nil =>
      rw [hleading] at hhead
      cases hhead
    | cons c tail =>
      rw [hleading] at hhead
      exact ⟨c, rfl, hhead⟩
  · intro d hin
    exact hbody d (mem_builtinDetectors d) (hstarts.isInfix.trans hin)

/-! ## The languages of the patterns -/

theorem reads_apiKeyPattern :
    apiKeyPattern.Reads (fun prev => prev.any (asciiOr ['_']) = false) (Words apiKeyShapes) where
  sound prev xs n h := by
    simp only [apiKeyPattern] at h
    split at h
    · cases h
    · rename_i hprev
      obtain ⟨steps, hmem, -, -, hword⟩ := RunPattern.word_of_alternatives h
      exact ⟨by simpa using hprev, steps, hmem, hword⟩
  complete prev w xs hprev hw hstarts := by
    obtain ⟨steps, hmem, hword⟩ := hw
    have hsep : ∀ steps ∈ apiKeyShapes, separated steps = true := by decide
    simp only [apiKeyPattern, hprev]
    exact RunPattern.alternatives_of_word hmem (hsep steps hmem) hword hstarts

/-- The code points of the letters and digits of ASCII. -/
theorem toNat_of_isAlphanum {c : Char} (hc : c.isAlphanum = true) :
    (65 ≤ c.toNat ∧ c.toNat ≤ 90) ∨ (97 ≤ c.toNat ∧ c.toNat ≤ 122) ∨
      (48 ≤ c.toNat ∧ c.toNat ≤ 57) := by
  simp only [Char.isAlphanum, Char.isAlpha, Bool.or_eq_true] at hc
  rcases hc with (hc | hc) | hc
  · exact .inl (by simpa [Char.isUpper, UInt32.le_iff_toNat_le] using hc)
  · exact .inr (.inl (by simpa [Char.isLower, UInt32.le_iff_toNat_le] using hc))
  · exact .inr (.inr (by simpa [Char.isDigit, UInt32.le_iff_toNat_le] using hc))

theorem toNat_lt_of_isAlphanum {c : Char} (hc : c.isAlphanum = true) : c.toNat < 128 := by
  have := toNat_of_isAlphanum hc
  omega

/-- A letter or digit is no whitespace and no quote. -/
theorem unquoted_of_isAlphanum {c : Char} (hc : c.isAlphanum = true) : unquoted [] c = true := by
  have hrange := toNat_of_isAlphanum hc
  have hspace : PyStr.isSpace c = false := by
    simp only [PyStr.isSpace, Bool.or_eq_false_iff, Bool.and_eq_false_iff, decide_eq_false_iff_not,
      beq_eq_false_iff_ne]
    omega
  have hsingle : c ≠ Char.ofNat 39 := by
    rintro rfl
    exact absurd hrange (by decide)
  have hdouble : c ≠ '"' := by
    rintro rfl
    exact absurd hrange (by decide)
  rw [unquoted, hspace]
  have hquotes : "'\"".toList ++ [] = [Char.ofNat 39, '"'] := rfl
  rw [hquotes]
  simp [hsingle, hdouble]

/-- Before a letter, `\b` says that no character of a word is before it. -/
theorem WordChars.boundary_of_isAlphanum (w : WordChars) {c : Char} (hc : c.isAlphanum = true)
    (prev : Option Char) : w.boundary prev (some c) = !prev.any w.isWord := by
  rw [WordChars.boundary, Option.any_some, w.ascii c (toNat_lt_of_isAlphanum hc), asciiOr, hc,
    Bool.true_or]
  cases prev.any w.isWord <;> rfl

/-- A dash is no character of a word. -/
theorem WordChars.isWord_dash (w : WordChars) : w.isWord '-' = false := by
  rw [w.ascii '-' (by decide)]
  rfl

section Patterns

variable (w : WordChars)

/-- `\b` before a text that starts with a letter. -/
theorem boundary_of_starts {xs word : List Char} (hhead : ∃ c ∈ word.head?, c.isAlphanum = true)
    (hstarts : word <+: xs) (prev : Option Char) :
    w.boundary prev xs.head? = !prev.any w.isWord := by
  obtain ⟨c, hc, halnum⟩ := hhead
  obtain ⟨tail, rfl⟩ := List.head?_eq_some_iff.mp hc
  obtain ⟨rest, rfl⟩ := hstarts
  exact w.boundary_of_isAlphanum halnum prev

/-- Behind its last run a JSON web token does not go on. -/
theorem head_of_jwtShape {xs : List Char} {n : Nat} (h : consume jwtShape xs = some n) :
    ∀ c ∈ (xs.drop n).head?, isUrlSafe c = false :=
  RunPattern.head_of_consume [.lit "eyJ".toList, .run isUrlSafe 5, .lit ['.'],
    .run isUrlSafe 5, .lit ['.']] h

theorem find_jwtPattern (prev : Option Char) (xs : List Char) :
    (jwtPattern w).find prev xs = if w.boundary prev xs.head? then consume jwtShape xs else none := by
  simp only [jwtPattern]
  split
  · cases hfind : consume jwtShape xs with
    | none => rfl
    | some n =>
      have hhead := head_of_jwtShape hfind
      apply Option.filter_eq_some_iff.mpr
      refine ⟨rfl, ?_⟩
      cases hdrop : (xs.drop n).head? with
      | none => rfl
      | some c => simp [hhead c hdrop]
  · rfl

theorem reads_jwtPattern :
    (jwtPattern w).Reads (fun prev => prev.any w.isWord = false) (Words [jwtShape]) where
  sound prev xs n h := by
    rw [find_jwtPattern] at h
    split at h
    · rename_i hprev
      obtain ⟨-, hword⟩ := RunPattern.word_of_consume h
      have hwords : Words [jwtShape] (xs.take n) := ⟨jwtShape, List.mem_singleton_self _, hword⟩
      rw [boundary_of_starts w (hwords.starts spelled_jwtShape).1 (List.take_prefix n xs)] at hprev
      exact ⟨by simpa using hprev, hwords⟩
    · cases h
  complete prev word xs hprev hw hstarts := by
    rw [find_jwtPattern, boundary_of_starts w (hw.starts spelled_jwtShape).1 hstarts, hprev]
    obtain ⟨steps, hmem, hword⟩ := hw
    rw [List.mem_singleton.mp hmem] at hword
    exact RunPattern.consume_of_word (by decide) hword hstarts

theorem reads_connectionStringPattern :
    (connectionStringPattern w).Reads (fun prev => prev.any w.isWord = false)
      (Words (connectionSchemes.map connectionShape)) where
  sound prev xs n h := by
    simp only [connectionStringPattern] at h
    split at h
    · rename_i hprev
      obtain ⟨steps, hmem, -, -, hword⟩ := RunPattern.word_of_alternatives h
      have hwords : Words (connectionSchemes.map connectionShape) (xs.take n) :=
        ⟨steps, hmem, hword⟩
      rw [boundary_of_starts w (hwords.starts spelled_connectionShapes).1
        (List.take_prefix n xs)] at hprev
      exact ⟨by simpa using hprev, hwords⟩
    · cases h
  complete prev word xs hprev hw hstarts := by
    have hsep : ∀ steps ∈ connectionSchemes.map connectionShape, separated steps = true := by
      decide
    simp only [connectionStringPattern]
    rw [boundary_of_starts w (hw.starts spelled_connectionShapes).1 hstarts, hprev]
    obtain ⟨steps, hmem, hword⟩ := hw
    exact RunPattern.alternatives_of_word hmem (hsep steps hmem) hword hstarts

/-- A private key: a first line, something, and a last line. -/
structure IsPrivateKey (word first gap last : List Char) : Prop where
  eq : word = first ++ gap ++ last
  begins : first ∈ pemLines "BEGIN".toList
  filled : gap ≠ []
  ends : last ∈ pemLines "END".toList

theorem pemLine_of_mem {edge line xs : List Char} (hline : line ∈ pemLines edge)
    (h : line <+: xs) : ∃ n, pemLine edge xs = some n := by
  refine RunPattern.alternatives_of_word (List.mem_map_of_mem hline) rfl ⟨[], ?_, rfl⟩ h
  rw [List.append_nil]

theorem mem_of_pemLine {edge xs : List Char} {n : Nat} (h : pemLine edge xs = some n) :
    n ≤ xs.length ∧ xs.take n ∈ pemLines edge := by
  obtain ⟨steps, hmem, -, hle, hword⟩ := RunPattern.word_of_alternatives h
  obtain ⟨line, hline, rfl⟩ := List.mem_map.mp hmem
  obtain ⟨rest, htake, hrest⟩ := hword
  rw [Word] at hrest
  rw [hrest, List.append_nil] at htake
  exact ⟨hle, by rwa [htake]⟩

/-- What the pattern of private keys finds is one. -/
theorem isPrivateKey_of_find {prev : Option Char} {xs : List Char} {n : Nat}
    (h : privateKeyPattern.find prev xs = some n) :
    ∃ first gap last, IsPrivateKey (xs.take n) first gap last := by
  simp only [privateKeyPattern] at h
  split at h
  · cases h
  · rename_i k hbegin
    split at h
    · rename_i hk
      obtain ⟨i, hi, rfl⟩ := Option.map_eq_some_iff.mp h
      obtain ⟨j, m, rfl, hj, hend⟩ := RunPattern.exists_of_lazily hi
      obtain ⟨-, hfirst⟩ := mem_of_pemLine hbegin
      obtain ⟨hm, hlast⟩ := mem_of_pemLine hend
      rw [List.drop_drop] at hlast hm
      rw [List.length_drop] at hj hm
      refine ⟨xs.take k, (xs.drop k).take (1 + j), (xs.drop (k + 1 + j)).take m, ?_, hfirst, ?_,
        hlast⟩
      · rw [← List.take_add, ← Nat.add_assoc k 1 j, ← List.take_add, ← Nat.add_assoc]
      · intro hnil
        have hlen := congrArg List.length hnil
        rw [List.length_take, List.length_drop, List.length_nil] at hlen
        omega
    · cases h

/-- A private key is found wherever there is one. -/
theorem find_of_isPrivateKey {word first gap last xs : List Char}
    (h : IsPrivateKey word first gap last) (hstarts : word <+: xs) (prev : Option Char) :
    ∃ n, privateKeyPattern.find prev xs = some n := by
  obtain ⟨rest, rfl⟩ := hstarts
  rw [h.eq, List.append_assoc, List.append_assoc]
  obtain ⟨n, hn⟩ := pemLine_of_mem h.begins (List.prefix_append first (gap ++ (last ++ rest)))
  -- no first line begins with another one
  have hfirst : n = first.length := by
    obtain ⟨hle, hmem⟩ := mem_of_pemLine hn
    have hfree : ∀ a ∈ pemLines "BEGIN".toList, ∀ b ∈ pemLines "BEGIN".toList, a <+: b → a = b := by
      decide
    have hlen := List.length_take_of_le hle
    rcases List.prefix_or_prefix_of_prefix (List.take_prefix n _)
      (List.prefix_append first (gap ++ (last ++ rest))) with hpre | hpre
    · rw [← hlen, hfree _ hmem _ h.begins hpre]
    · have heq := congrArg List.length (hfree _ h.begins _ hmem hpre)
      omega
  rw [hfirst] at hn
  obtain ⟨c, gap, rfl⟩ := List.exists_cons_of_ne_nil h.filled
  obtain ⟨m, hm⟩ := pemLine_of_mem h.ends (List.prefix_append last rest)
  have hdrop : (first ++ (c :: gap ++ (last ++ rest))).drop (first.length + 1) =
      gap ++ (last ++ rest) := by
    rw [List.drop_length_add_append]
    rfl
  have hgap : pemLine "END".toList ((gap ++ (last ++ rest)).drop gap.length) = some m := by
    rwa [List.drop_left]
  obtain ⟨k, hk⟩ := RunPattern.lazily_of_drop gap.length (by simp) hgap
  refine ⟨first.length + 1 + k, ?_⟩
  simp only [privateKeyPattern, hn]
  rw [if_pos (by simp), hdrop, hk]
  rfl

end Patterns

/-! ## High-entropy tokens -/

section Tokens

variable (highEntropy : List Char → Bool)

/-- The high-entropy tokens are among the maximal runs: the scan goes on behind a candidate
    whether it is replaced or not. -/
def entropyTokens : Matcher Char where
  find prev xs :=
    if prev.any isTokenChar then none
    else (consume [.run isTokenChar 24] xs).filter fun n => highEntropy (xs.take n)
  bounds prev xs n h := by
    split at h
    · cases h
    · exact RunPattern.consume_bounds (by decide) (Option.filter_eq_some_iff.mp h).1

theorem consume_token (xs : List Char) :
    consume [.run isTokenChar 24] xs =
      if 24 ≤ (xs.takeWhile isTokenChar).length then some (xs.takeWhile isTokenChar).length
      else none := by
  rw [consume]
  split
  · rfl
  · rfl

/-- A token is a run of the characters of tokens that nothing could be added to. -/
theorem token_of_find {prev : Option Char} {xs : List Char} {n : Nat}
    (h : (entropyTokens highEntropy).find prev xs = some n) :
    prev.any isTokenChar = false ∧ 24 ≤ n ∧ n = (xs.takeWhile isTokenChar).length ∧
      xs.take n = xs.takeWhile isTokenChar ∧ (∀ c ∈ (xs.drop n).head?, isTokenChar c = false) ∧
        highEntropy (xs.takeWhile isTokenChar) = true := by
  simp only [entropyTokens] at h
  split at h
  · cases h
  · rename_i hprev
    obtain ⟨hn, hentropy⟩ := Option.filter_eq_some_iff.mp h
    have hhead := RunPattern.head_of_consume [] hn
    rw [consume_token] at hn
    split at hn
    · rename_i hleast
      have htake := List.prefix_iff_eq_take.mp (List.takeWhile_prefix isTokenChar (l := xs))
      rw [Option.some.injEq] at hn
      rw [← hn] at hentropy hhead ⊢
      rw [← htake] at hentropy ⊢
      exact ⟨by simpa using hprev, hleast, rfl, rfl, hhead, hentropy⟩
    · cases hn

/-- A run of the characters of tokens is a token if it is long and has a high entropy. -/
theorem find_of_token {prev : Option Char} {xs : List Char} (hprev : prev.any isTokenChar = false)
    (hleast : 24 ≤ (xs.takeWhile isTokenChar).length)
    (hentropy : highEntropy (xs.takeWhile isTokenChar) = true) :
    (entropyTokens highEntropy).find prev xs = some (xs.takeWhile isTokenChar).length := by
  have htake := List.prefix_iff_eq_take.mp (List.takeWhile_prefix isTokenChar (l := xs))
  simp only [entropyTokens, hprev, consume_token, if_pos hleast]
  rw [if_neg (by simp)]
  apply Option.filter_eq_some_iff.mpr
  rw [← htake]
  exact ⟨rfl, hentropy⟩

/-- Inside of a run no token begins. -/
theorem find_inside_run {prev : Option Char} (hprev : prev.any isTokenChar = true)
    (xs : List Char) : (entropyTokens highEntropy).find prev xs = none := by
  simp [entropyTokens, hprev]

/-- A candidate is a whole run. -/
theorem run_of_candidate {prev : Option Char} {s rest : List Char}
    (h : entropyCandidatePattern.find prev (s ++ rest) = some s.length) :
    (s ++ rest).takeWhile isTokenChar = s ∧ 24 ≤ s.length ∧ rest.takeWhile isTokenChar = [] ∧
      ∀ c ∈ s, isTokenChar c = true := by
  have hconsume : consume [.run isTokenChar 24] (s ++ rest) = some s.length := h
  have hhead := RunPattern.head_of_consume [] hconsume
  rw [List.drop_left] at hhead
  rw [consume_token] at hconsume
  split at hconsume
  · rename_i hleast
    rw [Option.some.injEq] at hconsume
    have htake := List.prefix_iff_eq_take.mp
      (List.takeWhile_prefix isTokenChar (l := s ++ rest))
    rw [hconsume, List.take_left] at htake
    refine ⟨htake, hconsume ▸ hleast, ?_, fun c hc => ?_⟩
    · cases rest with
      | nil => rfl
      | cons d rest => simp [hhead d rfl]
    · rw [← htake] at hc
      exact List.mem_takeWhile_imp hc
  · cases hconsume

/-- The scan for candidates replaces just the tokens, also where it is within a run that is
    too short. -/
theorem scan_candidates (mark : List Char) (prev : Option Char) (xs : List Char)
    (hshort : prev.any isTokenChar = true → (xs.takeWhile isTokenChar).length < 24) :
    shown (entropyCandidatePattern.scan (fun token => if highEntropy token then mark else token) 0
        prev xs) = shown ((entropyTokens highEntropy).scan (fun _ => mark) 0 prev xs) ∧
      (entropyCandidatePattern.scan (fun token => if highEntropy token then mark else token) 0
          prev xs).countP (Segment.marks highEntropy) =
        ((entropyTokens highEntropy).scan (fun _ => mark) 0 prev xs).countP
          (Segment.marks fun _ => true) := by
  induction prev, xs using entropyCandidatePattern.scan_induction
    (fun token => if highEntropy token then mark else token) with
  | nil prev => simp
  | kept prev a rest hnone ih =>
    have hrun : ((a :: rest).takeWhile isTokenChar).length < 24 := by
      have hconsume : consume [.run isTokenChar 24] (a :: rest) = none := hnone
      rw [consume_token] at hconsume
      split at hconsume
      · cases hconsume
      · omega
    have hnone' : (entropyTokens highEntropy).find prev (a :: rest) = none := by
      cases hfind : (entropyTokens highEntropy).find prev (a :: rest) with
      | none => rfl
      | some n =>
        obtain ⟨-, hleast, hn, -⟩ := token_of_find highEntropy hfind
        omega
    have hshort' : (some a).any isTokenChar = true → (rest.takeWhile isTokenChar).length < 24 := by
      intro ha
      rw [Option.any_some] at ha
      rw [List.takeWhile_cons_of_pos ha, List.length_cons] at hrun
      omega
    obtain ⟨hshown, hcount⟩ := ih hshort'
    rw [Matcher.scan_kept _ _ hnone', shown_cons, shown_cons, hshown, List.countP_cons,
      List.countP_cons, hcount]
    exact ⟨rfl, rfl⟩
  | mark prev s rest hne hfind ih =>
    obtain ⟨hrun, hleast, hrest, htoken⟩ := run_of_candidate hfind
    have hprev : prev.any isTokenChar = false := by
      by_contra hprev
      have := hshort (by simpa using hprev)
      rw [hrun] at this
      omega
    obtain ⟨hshown, hcount⟩ := ih fun _ => by
      rw [hrest]
      exact Nat.zero_lt_succ _
    by_cases hentropy : highEntropy s = true
    · -- the candidate is a token
      have htokens := find_of_token highEntropy hprev (hrun.symm ▸ hleast) (hrun.symm ▸ hentropy)
      rw [hrun] at htokens
      rw [Matcher.scan_mark _ _ htokens, List.take_left, List.drop_left, shown_cons, shown_cons,
        hshown, List.countP_cons, List.countP_cons, hcount]
      simp [hentropy, Segment.shown, Segment.marks]
    · -- it is left as it is, and nothing in it is a token
      have hkept : (entropyTokens highEntropy).scan (fun _ => mark) 0 prev (s ++ rest) =
          s.map .kept ++ (entropyTokens highEntropy).scan (fun _ => mark) 0 (before prev s) rest := by
        apply Matcher.scan_append_of_none
        intro x y hxy hy
        rcases List.eq_nil_or_concat' x with rfl | ⟨x, c, rfl⟩
        · rw [List.nil_append] at hxy
          rw [← hxy]
          cases hfind' : (entropyTokens highEntropy).find (before prev []) (s ++ rest) with
          | none => rfl
          | some n =>
            obtain ⟨-, -, -, -, -, hhigh⟩ := token_of_find highEntropy hfind'
            rw [hrun] at hhigh
            exact absurd hhigh hentropy
        · apply find_inside_run
          rw [Substitution.before_append, Substitution.before_cons, Substitution.before_nil]
          exact htoken c (by rw [hxy]; simp)
      have hzero : (s.map Segment.kept).countP (Segment.marks fun _ => true) = 0 := by
        rw [List.countP_eq_zero]
        intro p hp
        obtain ⟨a, -, rfl⟩ := List.mem_map.mp hp
        simp [Segment.marks]
      rw [hkept, shown_cons, Substitution.shown_append, Substitution.shown_map_kept, hshown,
        List.countP_cons, List.countP_append, hcount, hzero]
      simp [hentropy, Segment.shown, Segment.marks]

end Tokens

/-! ## The detectors as substitutions -/

section Detectors

variable (w : WordChars) (highEntropy : List Char → Bool)

/-- The matches that a detector replaces. -/
def Detector.matcher : Detector → Matcher Char
  | .apiKey => apiKeyPattern
  | .jwt => jwtPattern w
  | .privateKey => privateKeyPattern
  | .connectionString => connectionStringPattern w
  | .highEntropyToken => entropyTokens highEntropy

/-- A detector that replaces every match. -/
theorem redactMatches_eq (pattern : Matcher Char) (type : String) (text : List Char) :
    redactMatches pattern (fun _ => true) type text =
      (pattern.sub (marker type) text, pattern.count text) := by
  have hcount := pattern.countP_scan (fun token => if true = true then marker type else token)
    (fun _ => true) none text
  rw [redactMatches, hcount]
  rfl

/-- A detector replaces its matches by its marker and counts them. -/
theorem Detector.redact_eq (d : Detector) (text : List Char) :
    d.redact w highEntropy text =
      ((d.matcher w highEntropy).sub (marker d.name) text,
        (d.matcher w highEntropy).count text) := by
  cases d with
  | apiKey => exact redactMatches_eq _ _ _
  | jwt => exact redactMatches_eq _ _ _
  | privateKey => exact redactMatches_eq _ _ _
  | connectionString => exact redactMatches_eq _ _ _
  | highEntropyToken =>
    obtain ⟨hshown, hcount⟩ := scan_candidates highEntropy (marker "high_entropy_token") none text
      nofun
    have htokens := (entropyTokens highEntropy).countP_scan
      (fun _ => marker "high_entropy_token") (fun _ => true) none text
    simp only [Detector.redact, redactHighEntropyTokens, redactMatches]
    rw [hshown, hcount, htokens]
    rfl

/-! ## Edges -/

/-- Behind a match there is no letter or digit, or its last character is a dash. -/
def Edged (m : Matcher Char) : Prop :=
  ∀ prev xs n, m.find prev xs = some n →
    (∀ c ∈ (xs.drop n).head?, c.isAlphanum = false) ∨ (xs.take n).getLast? = some '-'

/-- A private key ends with a dash. -/
theorem getLast_of_privateKey {prev : Option Char} {xs : List Char} {n : Nat}
    (h : privateKeyPattern.find prev xs = some n) : (xs.take n).getLast? = some '-' := by
  obtain ⟨first, gap, last, hkey⟩ := isPrivateKey_of_find h
  have hdash : ∀ last ∈ pemLines "END".toList, last.getLast? = some '-' := by decide
  have hlast := hdash last hkey.ends
  rw [hkey.eq, List.getLast?_append, hlast]
  rfl

/-- Behind a connection string there is whitespace, or a quote. -/
theorem head_of_connectionString {prev : Option Char} {xs : List Char} {n : Nat}
    (h : (connectionStringPattern w).find prev xs = some n) :
    ∀ c ∈ (xs.drop n).head?, unquoted [] c = false := by
  simp only [connectionStringPattern] at h
  split at h
  · obtain ⟨steps, hmem, hn, -⟩ := RunPattern.word_of_alternatives h
    obtain ⟨scheme, -, rfl⟩ := List.mem_map.mp hmem
    exact RunPattern.head_of_consume [.lit (scheme ++ "://".toList),
      .run (unquoted [':', '/', '@']) 1, .lit [':'], .run (unquoted ['@']) 1, .lit ['@']] hn
  · cases h

theorem isAlphanum_of_asciiOr {more : List Char} {c : Char} (h : asciiOr more c = false) :
    c.isAlphanum = false := by
  simp only [asciiOr, Bool.or_eq_false_iff] at h
  exact h.1

/-- Every detector but the first one leaves an edge. -/
theorem Detector.edged (d : Detector) (hd : d ≠ .apiKey) : Edged (d.matcher w highEntropy) := by
  intro prev xs n h
  cases d with
  | apiKey => exact absurd rfl hd
  | jwt =>
    left
    intro c hc
    change (jwtPattern w).find prev xs = some n at h
    rw [find_jwtPattern] at h
    split at h
    · exact isAlphanum_of_asciiOr (head_of_jwtShape h c hc)
    · cases h
  | privateKey => exact .inr (getLast_of_privateKey h)
  | connectionString =>
    left
    intro c hc
    by_contra halnum
    have := head_of_connectionString w h c hc
    rw [unquoted_of_isAlphanum (by simpa using halnum)] at this
    cases this
  | highEntropyToken =>
    left
    intro c hc
    obtain ⟨-, -, -, -, hhead, -⟩ := token_of_find highEntropy h
    exact isAlphanum_of_asciiOr (hhead c hc)

/-! ## Markers are spared -/

/-- A marker has no whitespace, no quote, no `@` and no dash. -/
theorem marker_chars (d : Detector) :
    ∀ c ∈ marker d.name, unquoted ['@'] c = true ∧ c ≠ '-' := by
  have hall : (marker d.name).all (fun c => unquoted ['@'] c && c != '-') = true := by
    cases d <;> rfl
  intro c hc
  have := List.all_eq_true.mp hall c hc
  simpa using this

/-- A match that begins with something that is in no marker does not begin inside of one. -/
theorem not_begins_inside {front back x y literal : List Char} (d : Detector)
    (hne : literal ≠ []) (hopen : '[' ∉ literal) (hclose : ']' ∉ literal)
    (hbody : ¬ literal <:+: d.body) (hliteral : literal <+: back)
    (h : front ++ back = x ++ marker d.name ++ y) :
    ¬ (x.length < front.length ∧ front.length < x.length + (marker d.name).length) := by
  obtain ⟨rest, rfl⟩ := hliteral
  rw [List.append_assoc, marker_eq] at h
  rw [marker_eq]
  have := Substitution.disjoint_bracketed hne hopen hclose hbody h
  omega

/-- A match without brackets spares a marker that it is not in. -/
theorem spares_of_bracketless {m : Matcher Char} (d : Detector)
    (h : ∀ prev xs n, m.find prev xs = some n →
      '[' ∉ xs.take n ∧ ']' ∉ xs.take n ∧ ¬ xs.take n <:+: d.body) :
    m.Spares (marker d.name) := by
  intro front back n hat x y hsplit
  obtain ⟨hopen, hclose, hbody⟩ := h _ _ _ hat
  obtain ⟨hpos, hle⟩ := m.bounds _ _ _ hat
  have hlen := List.length_take_of_le hle
  have hne : back.take n ≠ [] := by
    rw [← List.length_pos_iff, hlen]
    exact hpos
  rw [marker_eq, ← List.take_append_drop n back, List.append_assoc x] at hsplit
  have := Substitution.disjoint_bracketed hne hopen hclose hbody hsplit
  rw [marker_eq]
  omega

/-- A text without a separator that is in a text with one is on one side of it. -/
theorem infix_of_separated {word a b : List Char} {c : Char} (hc : c ∉ word)
    (h : word <:+: a ++ c :: b) : word.length ≤ max a.length b.length := by
  obtain ⟨front, rest, hsplit⟩ := h
  rw [List.append_assoc] at hsplit
  rcases List.append_eq_append_iff.mp hsplit with ⟨a', rfl, hrest⟩ | ⟨b', rfl, hrest⟩
  · rcases List.append_eq_append_iff.mp hrest with ⟨t, rfl, -⟩ | ⟨t, hword, ht⟩
    · simp only [List.length_append]
      omega
    · cases t with
      | nil =>
        rw [hword]
        simp only [List.length_append, List.length_nil]
        omega
      | cons d t =>
        rw [List.cons_append] at ht
        rw [hword, ← (List.cons.inj ht).1] at hc
        exact absurd (by simp) hc
  · cases b' with
    | nil =>
      rw [List.nil_append] at hrest
      cases word with
      | nil => exact Nat.zero_le _
      | cons d word =>
        rw [List.cons_append] at hrest
        rw [(List.cons.inj hrest).1] at hc
        exact absurd List.mem_cons_self hc
    | cons d b' =>
      rw [List.cons_append] at hrest
      have hlen := congrArg List.length (List.cons.inj hrest).2
      simp only [List.length_append] at hlen
      omega

/-- The body of a marker is shorter than a token on both sides of the colon. -/
theorem not_infix_body {word : List Char} (d : Detector) (hcolon : ':' ∉ word)
    (hlen : 24 ≤ word.length) : ¬ word <:+: d.body := by
  intro hinfix
  have hbody : d.body = "redacted".toList ++ ':' :: d.name.toList := by
    cases d <;> rfl
  have hname : d.name.toList.length ≤ 18 := by
    cases d <;> decide
  rw [hbody] at hinfix
  have := infix_of_separated hcolon hinfix
  have hred : "redacted".toList.length = 8 := by decide
  omega

/-- Every detector but the first one spares the markers. -/
theorem Detector.spares (d : Detector) (hd : d ≠ .apiKey) (e : Detector) :
    (d.matcher w highEntropy).Spares (marker e.name) := by
  cases d with
  | apiKey => exact absurd rfl hd
  | jwt =>
    apply spares_of_bracketless
    intro prev xs n h
    obtain ⟨-, hwords⟩ := (reads_jwtPattern w).sound prev xs n h
    obtain ⟨hopen, hclose⟩ := hwords.bracketless bracketless_jwtShape
    exact ⟨hopen, hclose, (hwords.starts spelled_jwtShape).2 e⟩
  | highEntropyToken =>
    apply spares_of_bracketless
    intro prev xs n h
    obtain ⟨-, hleast, hn, htake, -⟩ := token_of_find highEntropy h
    have hnot : ∀ c, isTokenChar c = false → c ∉ xs.takeWhile isTokenChar := by
      intro c hc hmem
      rw [List.mem_takeWhile_imp hmem] at hc
      cases hc
    rw [htake]
    refine ⟨hnot '[' (by decide), hnot ']' (by decide), ?_⟩
    exact not_infix_body e (hnot ':' (by decide)) (hn ▸ hleast)
  | privateKey =>
    intro front back n hat x y hsplit
    obtain ⟨first, gap, last, hkey⟩ := isPrivateKey_of_find hat
    have hlines : ∀ first ∈ pemLines "BEGIN".toList, first ≠ [] ∧ '[' ∉ first ∧ ']' ∉ first ∧
        ∀ e ∈ builtinDetectors, ¬ first <:+: e.body := by
      decide
    obtain ⟨hne, hopen, hclose, hbody⟩ := hlines first hkey.begins
    have hfirst : first <+: back := by
      have htake := List.take_prefix n back
      rw [hkey.eq, List.append_assoc] at htake
      exact (List.prefix_append _ _).trans htake
    refine ⟨not_begins_inside e hne hopen hclose (hbody e (mem_builtinDetectors e)) hfirst hsplit,
      fun hinside => ?_⟩
    -- it ends with a dash
    obtain ⟨hpos, hle⟩ := privateKeyPattern.bounds _ _ _ hat
    obtain ⟨-, c, hc, hmem⟩ := Substitution.mem_of_inside hsplit hle hpos hinside.1 hinside.2
    rw [getLast_of_privateKey hat, Option.mem_some_iff] at hc
    exact (marker_chars e c hmem).2 hc.symm
  | connectionString =>
    intro front back n hat x y hsplit
    obtain ⟨-, steps, hsteps, hword⟩ := (reads_connectionStringPattern w).sound _ _ _ hat
    obtain ⟨hhead, hopen, hclose, hbody⟩ := spelled_connectionShapes steps hsteps
    have hne : leading steps ≠ [] := by
      intro hnil
      rw [hnil] at hhead
      cases hhead
    have hleading : leading steps <+: back := hword.leading_isPrefix.trans (List.take_prefix n back)
    refine ⟨not_begins_inside e hne hopen hclose (hbody e (mem_builtinDetectors e)) hleading
      hsplit, fun hinside => ?_⟩
    -- whitespace or a quote is behind it
    obtain ⟨hpos, hle⟩ := (connectionStringPattern w).bounds _ _ _ hat
    obtain ⟨⟨c, hc, hmem⟩, -⟩ := Substitution.mem_of_inside hsplit hle hpos hinside.1 hinside.2
    have hunquoted := (marker_chars e c hmem).1
    have hplain := head_of_connectionString w hat c hc
    simp only [unquoted, Bool.and_eq_true, Bool.not_eq_true', List.contains_append,
      Bool.or_eq_false_iff, List.append_nil] at hunquoted hplain
    rw [hunquoted.1, hunquoted.2.1] at hplain
    cases hplain

end Detectors

end Inherent
