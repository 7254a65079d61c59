import Inherent.Spec.DetectorWords

/-!
# What a redaction leaves

The detectors run once, one after the other.  A later one may leave something behind its
marker, or with its marker, that an earlier one matches: behind a key of a fixed length the
next key becomes visible, and the marker of a token can be the password of a connection
string.  There is no other match in a redacted text.
-/

namespace Inherent

open RunPattern (Word)
open Substitution (Matcher Segment Marked before shown shown_cons originals)

/-! ## Where a match in the redacted text comes from -/

section Kept

variable {m : Matcher Char} {text front back rest : List Char} (e : Detector)

/-- A text without brackets that is in no marker is kept. -/
theorem kept_of_sub {word : List Char} (hne : word ≠ []) (hopen : '[' ∉ word)
    (hclose : ']' ∉ word) (hbody : ¬ word <:+: e.body)
    (hout : m.sub (marker e.name) text = front ++ (word ++ rest)) :
    ∃ qs ps, m.scan (fun _ => marker e.name) 0 none text = qs ++ word.map .kept ++ ps ∧
      shown qs = front ∧ shown ps = rest := by
  rw [← List.append_assoc] at hout
  refine Substitution.exists_kept_of_shown hne (fun s o hmem => ?_) hout
  obtain ⟨rfl, -⟩ := m.mark_of_mem_scan hmem
  exact ⟨'[', ']', e.body, marker_eq e, hopen, hclose, hbody⟩

/-- Behind an edge nothing changes for what begins with a letter: the character before it is
    no character of `p` in the text, if it is none in the redacted text. -/
theorem left_of_edged (hedged : Edged m) {repl : List Char → List Char}
    {qs ps : List (Segment Char)} {c : Char}
    (hscan : m.scan repl 0 none text = qs ++ .kept c :: ps) (hc : c.isAlphanum = true)
    {p : Char → Bool} (hdash : p '-' = false) (hleft : (before none (shown qs)).any p = false) :
    (before none (originals qs)).any p = false := by
  rcases List.eq_nil_or_concat' qs with rfl | ⟨qs, q, rfl⟩
  · exact hleft
  · cases q with
    | kept a =>
      simp only [Substitution.shown_append, Substitution.originals_append,
        Substitution.before_append] at hleft ⊢
      exact hleft
    | mark s o =>
      rw [List.append_assoc] at hscan
      obtain ⟨hfind, -, hne⟩ := m.finds_of_scan repl hscan
      simp only [Substitution.originals_cons, Segment.original] at hfind
      rcases hedged _ _ _ hfind with hhead | hlast
      · rw [List.drop_left] at hhead
        have := hhead c rfl
        rw [hc] at this
        cases this
      · rw [List.take_left] at hlast
        have hbefore : before none (originals (qs ++ [.mark s o])) = some '-' := by
          rw [Substitution.originals_append, Substitution.before_append, before,
            Substitution.originals_cons, Segment.original, Substitution.originals_nil,
            List.append_nil, hlast]
          rfl
        rw [hbefore, Option.any_some, hdash]

/-- A match of a pattern whose words have no brackets was one already, unless the character
    before it has changed. -/
theorem at_originals {d : Matcher Char} {p : Char → Bool}
    {shapes : List (List (RunPattern.Step Char))} {n : Nat}
    (hreads : d.Reads (fun prev => prev.any p = false) (Words shapes)) (hspelled : Spelled shapes)
    (hless : Bracketless shapes) (hout : m.sub (marker e.name) text = front ++ back)
    (hat : d.At front back n) :
    ∃ qs c ps, m.scan (fun _ => marker e.name) 0 none text = qs ++ .kept c :: ps ∧
      shown qs = front ∧ c.isAlphanum = true ∧ (before none (shown qs)).any p = false ∧
        ((before none (originals qs)).any p = false →
          ∃ k, d.At (originals qs) (originals (.kept c :: ps)) k) := by
  obtain ⟨hleft, hwords⟩ := hreads.sound _ _ _ hat
  obtain ⟨⟨c, hc, halnum⟩, hbody⟩ := hwords.starts hspelled
  obtain ⟨hopen, hclose⟩ := hwords.bracketless hless
  obtain ⟨tail, htail⟩ := List.head?_eq_some_iff.mp hc
  have hne : back.take n ≠ [] := by
    rw [htail]
    exact List.cons_ne_nil c tail
  rw [← List.take_append_drop n back] at hout
  obtain ⟨qs, ps, hscan, rfl, -⟩ := kept_of_sub e hne hopen hclose (hbody e) hout
  rw [htail, List.map_cons, List.append_assoc, List.cons_append] at hscan
  refine ⟨qs, c, tail.map .kept ++ ps, hscan, rfl, halnum, hleft, fun hleft' => ?_⟩
  apply hreads.complete _ _ _ hleft' hwords
  rw [htail]
  refine ⟨originals ps, ?_⟩
  simp [Segment.original]

end Kept

/-! ## Patterns without brackets -/

section Shapes

variable {d m : Matcher Char} {p : Char → Bool} {shapes : List (List (RunPattern.Step Char))}
  (hreads : d.Reads (fun prev => prev.any p = false) (Words shapes)) (hspelled : Spelled shapes)
  (hless : Bracketless shapes) (hdash : p '-' = false) (e : Detector)

include hreads hspelled hless hdash

/-- A substitution that leaves edges makes no new match. -/
theorem free_sub_of_edged (hedged : Edged m) {text : List Char} (hfree : d.Free text) :
    d.Free (m.sub (marker e.name) text) := by
  intro front back n hout hat
  obtain ⟨qs, c, ps, hscan, rfl, hc, hleft, hmatch⟩ :=
    at_originals e hreads hspelled hless hout hat
  obtain ⟨k, hk⟩ := hmatch (left_of_edged hedged hscan hc hdash hleft)
  apply hfree _ _ k _ hk
  rw [← Substitution.originals_append, ← hscan, m.originals_scan]

/-- Nor does its own substitution leave one, if it leaves edges. -/
theorem free_sub_self (hedged : Edged d) (text : List Char) :
    d.Free (d.sub (marker e.name) text) := by
  intro front back n hout hat
  obtain ⟨qs, c, ps, hscan, rfl, hc, hleft, hmatch⟩ :=
    at_originals e hreads hspelled hless hout hat
  obtain ⟨k, hk⟩ := hmatch (left_of_edged hedged hscan hc hdash hleft)
  have hnone : d.find (before none (originals qs)) (originals (.kept c :: ps)) = none :=
    d.finds_of_scan _ hscan
  rw [Matcher.At, hnone] at hk
  cases hk

end Shapes

/-! ## Keys -/

/-- A key is only left behind the marker of another one. -/
def KeysBehindMarkers (text : List Char) : Prop :=
  ∀ front back n, text = front ++ back → apiKeyPattern.At front back n →
    marker "api_key" <:+ front

/-- What is kept of the text behind every mark. -/
theorem exists_kept_suffix {ps : List (Segment Char)} {x y : List Char}
    (horig : originals ps = x ++ y)
    (hmark : ∀ qs s o rs, ps = qs ++ Segment.mark s o :: rs →
      (originals qs).length + o.length ≤ x.length) :
    ∃ qs, ps = qs ++ y.map .kept := by
  induction y using List.reverseRecOn generalizing ps with
  | nil => exact ⟨ps, by simp⟩
  | append_singleton y a ih =>
    rcases List.eq_nil_or_concat' ps with rfl | ⟨ps, p, rfl⟩
    · simp at horig
    · rw [Substitution.originals_append, Substitution.originals_cons,
        Substitution.originals_nil, List.append_nil] at horig
      cases p with
      | mark s o =>
        -- the mark would end behind `x`
        have hend := hmark ps s o [] rfl
        have hlen := congrArg List.length horig
        simp only [Segment.original, List.length_append, List.length_singleton] at hlen
        omega
      | kept b =>
        rw [Segment.original, ← List.append_assoc] at horig
        obtain ⟨hxy, hab⟩ := List.append_inj' horig rfl
        obtain ⟨qs, rfl⟩ := ih hxy fun qs s o rs hps =>
          hmark qs s o (rs ++ [.kept b]) (by rw [hps]; simp)
        refine ⟨qs, ?_⟩
        rw [List.map_append, List.map_singleton, ← (List.cons.inj hab).1, List.append_assoc]

/-- A marker in front of a letter is kept by what spares it and leaves edges. -/
theorem marker_kept {m : Matcher Char} (hedged : Edged m) (d : Detector)
    (hspares : m.Spares (marker d.name)) {mark text : List Char} {qs ps : List (Segment Char)}
    {c : Char} (hscan : m.scan (fun _ => mark) 0 none text = qs ++ .kept c :: ps)
    (hc : c.isAlphanum = true) (hmarker : marker d.name <:+ originals qs) :
    marker d.name <:+ shown qs := by
  obtain ⟨x, hx⟩ := hmarker
  have htext : text = originals qs ++ originals (.kept c :: ps) := by
    rw [← Substitution.originals_append, ← hscan, m.originals_scan]
  obtain ⟨qs', hqs'⟩ := exists_kept_suffix hx.symm (by
    intro rs s o ts hqs
    have hscan' : m.scan (fun _ => mark) 0 none text =
        rs ++ .mark s o :: (ts ++ .kept c :: ps) := by
      rw [hscan, hqs, List.append_assoc, List.cons_append]
    obtain ⟨hfind, -, hne⟩ := m.finds_of_scan _ hscan'
    obtain ⟨hpos, -⟩ := m.bounds _ _ _ hfind
    have hlen : (originals rs).length + o.length + (originals ts).length =
        x.length + (marker d.name).length := by
      have := congrArg List.length hx
      rw [hqs] at this
      simp only [Substitution.originals_append, Substitution.originals_cons, Segment.original,
        List.length_append] at this
      omega
    have hinside := (hspares _ _ _ hfind x (originals (.kept c :: ps)) (by
      rw [hx, ← htext, ← Substitution.originals_append, ← hscan', m.originals_scan])).2
    by_contra hbehind
    -- the match would end with the marker
    have hts : originals ts = [] := by
      apply List.eq_nil_of_length_eq_zero
      omega
    simp only [Substitution.originals_cons, Substitution.originals_append, Segment.original,
      hts] at hfind
    rcases hedged _ _ _ hfind with hhead | hlast
    · rw [List.drop_left] at hhead
      have := hhead c rfl
      rw [hc] at this
      cases this
    · rw [List.take_left] at hlast
      have hend : (x ++ marker d.name).getLast? = some '-' := by
        rw [hx, hqs]
        simp [Segment.original, hts, hlast]
      have hbracket : (marker d.name).getLast? = some ']' := by
        rw [marker_eq, Substitution.bracketed, List.getLast?_concat]
      rw [List.getLast?_append, hbracket, Option.some_or] at hend
      exact absurd hend (by decide))
  rw [hqs', Substitution.shown_append, Substitution.shown_map_kept]
  exact List.suffix_append _ _

theorem dash_notMem : asciiOr ['_'] '-' = false := rfl

/-- What spares the markers of keys and leaves edges leaves keys behind markers only. -/
theorem KeysBehindMarkers.sub {m : Matcher Char} {text : List Char} (h : KeysBehindMarkers text)
    (e : Detector) (hedged : Edged m) (hspares : m.Spares (marker "api_key")) :
    KeysBehindMarkers (m.sub (marker e.name) text) := by
  intro front back n hout hat
  obtain ⟨qs, c, ps, hscan, rfl, hc, hleft, hmatch⟩ := at_originals e reads_apiKeyPattern
    spelled_apiKeyShapes bracketless_apiKeyShapes hout hat
  obtain ⟨k, hk⟩ := hmatch (left_of_edged hedged hscan hc dash_notMem hleft)
  have hmarker := h _ _ k (by rw [← Substitution.originals_append, ← hscan, m.originals_scan]) hk
  exact marker_kept hedged .apiKey hspares hscan hc hmarker

/-- The keys that are left when all keys have been replaced. -/
theorem keysBehindMarkers_sub (text : List Char) :
    KeysBehindMarkers (apiKeyPattern.sub (marker "api_key") text) := by
  intro front back n hout hat
  obtain ⟨qs, c, ps, hscan, rfl, hc, hleft, hmatch⟩ := at_originals .apiKey reads_apiKeyPattern
    spelled_apiKeyShapes bracketless_apiKeyShapes hout hat
  have hnone : apiKeyPattern.find (before none (originals qs)) (originals (.kept c :: ps)) = none :=
    apiKeyPattern.finds_of_scan _ hscan
  -- the character before the key has changed
  have hchanged : ¬ (before none (originals qs)).any (asciiOr ['_']) = false := by
    intro hleft'
    obtain ⟨k, hk⟩ := hmatch hleft'
    rw [Matcher.At, hnone] at hk
    cases hk
  rcases List.eq_nil_or_concat' qs with rfl | ⟨qs, q, rfl⟩
  · exact absurd hleft hchanged
  · cases q with
    | kept a =>
      simp only [Substitution.shown_append, Substitution.originals_append,
        Substitution.before_append] at hleft hchanged
      exact absurd hleft hchanged
    | mark s o =>
      have hmem : Segment.mark s o ∈ apiKeyPattern.scan
          (fun _ => marker Detector.apiKey.name) 0 none text := by
        rw [hscan]
        simp
      obtain ⟨rfl, -⟩ := apiKeyPattern.mark_of_mem_scan hmem
      rw [Substitution.shown_append, shown_cons, Substitution.shown_nil, List.append_nil]
      exact List.suffix_append _ _

/-! ## Private keys -/

/-- No substitution makes a new private key. -/
theorem free_privateKey_sub {m : Matcher Char} (e : Detector) {text : List Char}
    (h : ∀ qs c ps, m.scan (fun _ => marker e.name) 0 none text = qs ++ .kept c :: ps →
      privateKeyPattern.find (before none (originals qs)) (originals (.kept c :: ps)) = none) :
    privateKeyPattern.Free (m.sub (marker e.name) text) := by
  intro front back n hout hat
  obtain ⟨first, gap, last, hkey⟩ := isPrivateKey_of_find hat
  have hlines : ∀ edge ∈ ["BEGIN".toList, "END".toList], ∀ line ∈ pemLines edge,
      line ≠ [] ∧ '[' ∉ line ∧ ']' ∉ line ∧ ∀ e ∈ builtinDetectors, ¬ line <:+: e.body := by
    decide
  obtain ⟨hne, hopen, hclose, hbody⟩ := hlines _ (by simp) first hkey.begins
  obtain ⟨hne', hopen', hclose', hbody'⟩ := hlines _ (by simp) last hkey.ends
  rw [← List.take_append_drop n back, hkey.eq, List.append_assoc, List.append_assoc] at hout
  -- both lines are kept
  obtain ⟨qs, ps, hscan, -, hps⟩ :=
    kept_of_sub e hne hopen hclose (hbody e (mem_builtinDetectors e)) hout
  have hmark : ∀ s o, Segment.mark s o ∈ ps → s = marker e.name ∧ o ≠ [] := by
    intro s o hmem
    have hin : Segment.mark s o ∈ m.scan (fun _ => marker e.name) 0 none text := by
      rw [hscan]
      exact List.mem_append_right _ hmem
    exact m.mark_of_mem_scan hin
  rw [← List.append_assoc] at hps
  obtain ⟨rs, ts, rfl, hrs, -⟩ := Substitution.exists_kept_of_shown hne' (fun s o hmem =>
    ⟨'[', ']', e.body, (hmark s o hmem).1.trans (marker_eq e), hopen', hclose',
      hbody' e (mem_builtinDetectors e)⟩) hps
  have hgap : originals rs ≠ [] := by
    apply Substitution.originals_ne_nil
    · rintro rfl
      exact hkey.filled hrs.symm
    · intro s o hmem
      exact (hmark s o (by simp [hmem])).2
  obtain ⟨c, tail, rfl⟩ := List.exists_cons_of_ne_nil hne
  rw [List.map_cons, List.append_assoc, List.cons_append] at hscan
  have hnone := h _ _ _ hscan
  have hkey' : IsPrivateKey (c :: tail ++ originals rs ++ last) (c :: tail) (originals rs) last :=
    ⟨rfl, hkey.begins, hgap, hkey.ends⟩
  have hpre : c :: tail ++ originals rs ++ last <+:
      originals (.kept c :: (tail.map .kept ++ (rs ++ last.map .kept ++ ts))) :=
    ⟨originals ts, by simp [Segment.original]⟩
  obtain ⟨k, hk⟩ := find_of_isPrivateKey hkey' hpre (before none (originals qs))
  rw [hnone] at hk
  cases hk

/-! ## Connection strings -/

section Connections

variable (w : WordChars)

/-- What a connection string has behind its scheme: user, password and host. -/
def credentials : List (RunPattern.Step Char) :=
  [.run (unquoted [':', '/', '@']) 1, .lit [':'], .run (unquoted ['@']) 1, .lit ['@'],
   .run (unquoted []) 1]

/-- A character class with fewer exceptions is larger. -/
theorem unquoted_nil_of_unquoted {more : List Char} {c : Char} (h : unquoted more c = true) :
    unquoted [] c = true := by
  simp only [unquoted, Bool.and_eq_true, Bool.not_eq_true', List.contains_append,
    Bool.or_eq_false_iff, List.append_nil] at h ⊢
  exact ⟨h.1, h.2.1⟩

/-- There is no whitespace and no quote in the credentials. -/
theorem unquoted_of_credentials {v : List Char} (h : Word credentials v) :
    ∀ c ∈ v, unquoted [] c = true := by
  intro c hc
  obtain ⟨s, hs, hallows⟩ := h.allows hc
  simp only [credentials, List.mem_cons, List.not_mem_nil, or_false] at hs
  rcases hs with rfl | rfl | rfl | rfl | rfl
  · exact unquoted_nil_of_unquoted hallows
  · rw [List.mem_singleton.mp hallows]
    decide
  · exact unquoted_nil_of_unquoted hallows
  · rw [List.mem_singleton.mp hallows]
    decide
  · exact hallows

/-- The host may end in any other way. -/
theorem credentials_replace {v₁ v₂ host : List Char} (h : Word credentials (v₁ ++ v₂))
    (hat : '@' ∉ v₂) (hne : host ≠ []) (hhost : ∀ c ∈ host, unquoted [] c = true) :
    Word credentials (v₁ ++ host) := by
  obtain ⟨user, _, hv, huser, huser', _, rfl, password, _, rfl, hpassword, hpassword', _, rfl,
    tail, _, rfl, htail, htail', rfl⟩ := h
  have hsplit : v₁ ++ v₂ = (user ++ ([':'] ++ (password ++ ['@']))) ++ tail := by
    rw [hv]
    simp
  have hlen := List.length_pos_iff.mpr hne
  rcases List.append_eq_append_iff.mp hsplit with ⟨a, ha, hrest⟩ | ⟨a, rfl, hrest⟩
  · -- the `@` is the last character before the host
    rcases List.eq_nil_or_concat' a with rfl | ⟨a, c, rfl⟩
    · rw [List.append_nil] at ha
      refine ⟨user, [':'] ++ (password ++ (['@'] ++ host)), by rw [← ha]; simp, huser, huser', _,
        rfl, password, _, rfl, hpassword, hpassword', _, rfl, host, [], by simp, hhost, hlen, rfl⟩
    · have hlast : user ++ ([':'] ++ password) ++ ['@'] = v₁ ++ a ++ [c] := by
        rw [List.append_assoc v₁, ← ha]
        simp
      have := List.append_inj_right' hlast rfl
      simp only [List.cons.injEq, and_true] at this
      rw [hrest, ← this] at hat
      exact absurd (by simp) hat
  · have hhost' : ∀ c ∈ a ++ host, unquoted [] c = true := by
      intro c hc
      rcases List.mem_append.mp hc with hc | hc
      · exact htail c (by rw [hrest]; exact List.mem_append_left _ hc)
      · exact hhost c hc
    refine ⟨user, [':'] ++ (password ++ (['@'] ++ (a ++ host))), by simp, huser, huser', _,
      rfl, password, _, rfl, hpassword, hpassword', _, rfl, a ++ host, [], by simp, hhost', ?_, rfl⟩
    rw [List.length_append]
    omega

/-- A connection string that is read in the redacted text: its scheme is kept, and what is
    shown behind it are the credentials. -/
theorem connection_kept {m : Matcher Char} (e : Detector) (hedged : Edged m)
    {text front back : List Char} {n : Nat} (hout : m.sub (marker e.name) text = front ++ back)
    (hat : (connectionStringPattern w).At front back n) :
    ∃ qs c ps literal v, m.scan (fun _ => marker e.name) 0 none text =
        qs ++ (.kept c :: literal.map .kept) ++ ps ∧
      (before none (originals qs)).any w.isWord = false ∧ back.take n = c :: literal ++ v ∧
        shown ps = v ++ back.drop n ∧ Word credentials v ∧
          ∀ v', Word credentials v' →
            Words (connectionSchemes.map connectionShape) (c :: literal ++ v') := by
  obtain ⟨hleft, steps, hsteps, hword⟩ := (reads_connectionStringPattern w).sound _ _ _ hat
  obtain ⟨hhead, hopen, hclose, hbody⟩ := spelled_connectionShapes steps hsteps
  obtain ⟨scheme, hscheme, rfl⟩ := List.mem_map.mp hsteps
  obtain ⟨v, hv, hcredentials⟩ := hword
  have hleading : RunPattern.leading (connectionShape scheme) = scheme ++ "://".toList := rfl
  rw [hleading] at hhead hopen hclose hbody
  generalize hliteral : scheme ++ "://".toList = literal at hhead hopen hclose hbody hv
  cases literal with
  | nil => cases hhead
  | cons c literal =>
    rw [← List.take_append_drop n back, hv, List.append_assoc] at hout
    obtain ⟨qs, ps, hscan, rfl, hps⟩ := kept_of_sub e (List.cons_ne_nil c literal) hopen hclose
      (hbody e (mem_builtinDetectors e)) hout
    refine ⟨qs, c, ps, literal, v, hscan, ?_, hv, hps, hcredentials, fun v' hv' =>
      ⟨connectionShape scheme, hsteps, v', by rw [hliteral], hv'⟩⟩
    rw [List.map_cons, List.append_assoc, List.cons_append] at hscan
    exact left_of_edged hedged hscan hhead w.isWord_dash hleft

/-- What is shown behind a match of a connection string does not go on with its characters. -/
theorem not_credentials_behind {ps : List (Segment Char)} {s o : List Char}
    {text : List Char} {qs : List (Segment Char)}
    (hscan : (connectionStringPattern w).scan (fun _ => marker "connection_string") 0 none text =
      qs ++ .mark s o :: ps) : ∀ c ∈ (shown ps).head?, unquoted [] c = false := by
  obtain ⟨hfind, -, -⟩ := (connectionStringPattern w).finds_of_scan _ hscan
  have hhead := head_of_connectionString w hfind
  simp only [Substitution.originals_cons, Segment.original, List.drop_left] at hhead
  cases ps with
  | nil => simp
  | cons p ps =>
    cases p with
    | kept a => exact hhead
    | mark s' o' =>
      -- two connection strings do not touch
      rw [List.append_cons] at hscan
      obtain ⟨hfind', -, -⟩ := (connectionStringPattern w).finds_of_scan _ hscan
      obtain ⟨-, hwords⟩ := (reads_connectionStringPattern w).sound _ _ _ hfind'
      simp only [Substitution.originals_cons, Segment.original, List.take_left] at hwords hhead
      obtain ⟨⟨c, hc, halnum⟩, -⟩ := hwords.starts spelled_connectionShapes
      obtain ⟨tail, rfl⟩ := List.head?_eq_some_iff.mp hc
      have := hhead c rfl
      rw [unquoted_of_isAlphanum halnum] at this
      cases this

/-- A connection string is made of characters that are neither whitespace nor quotes. -/
theorem unquoted_of_words {word : List Char}
    (h : Words (connectionSchemes.map connectionShape) word) : ∀ c ∈ word, unquoted [] c = true := by
  intro c hc
  obtain ⟨steps, hsteps, hword⟩ := h
  obtain ⟨scheme, hscheme, rfl⟩ := List.mem_map.mp hsteps
  obtain ⟨v, rfl, hv⟩ := hword
  rcases List.mem_append.mp hc with hc | hc
  · have hliterals : connectionSchemes.all
        (fun scheme => (scheme ++ "://".toList).all (unquoted [])) = true := rfl
    exact List.all_eq_true.mp (List.all_eq_true.mp hliterals scheme hscheme) c hc
  · exact unquoted_of_credentials hv c hc

/-- Credentials that are shown in part by a marker end in it, so that the `@` is before it. -/
theorem credentials_of_shown {text : List Char} {qs ps : List (Segment Char)}
    {v behind : List Char} (hv : Word credentials v) (hps : shown ps = v ++ behind)
    (hscan : (connectionStringPattern w).scan (fun _ => marker "connection_string") 0 none text =
      qs ++ ps) : ∃ v', Word credentials v' ∧ v' <+: originals ps := by
  rcases Substitution.prefix_originals_or_mark hps with
    hprefix | ⟨kept, v₂, s, o, rest, rfl, rfl, hbehind⟩
  · exact ⟨v, hv, hprefix⟩
  · rw [← List.append_assoc] at hscan
    obtain ⟨hfind, hs, ho⟩ := (connectionStringPattern w).finds_of_scan _ hscan
    obtain ⟨-, hwords⟩ := (reads_connectionStringPattern w).sound _ _ _ hfind
    rw [Substitution.originals_cons, Segment.original, List.take_left] at hwords
    have hmarker : v₂ <+: marker "connection_string" := by
      rw [hs] at hbehind
      rcases List.append_eq_append_iff.mp hbehind with ⟨t, ht, -⟩ | ⟨t, rfl, hrest⟩
      · exact ⟨t, ht.symm⟩
      · cases t with
        | nil => rw [List.append_nil]
        | cons d t =>
          -- behind the marker the credentials do not go on
          have hquoted := not_credentials_behind w hscan d (by rw [hrest]; rfl)
          have hplain := unquoted_of_credentials hv d (by simp)
          rw [hquoted] at hplain
          cases hplain
    have hat : '@' ∉ v₂ := fun hin =>
      absurd (marker_chars .connectionString '@' (hmarker.subset hin)).1 (by decide)
    refine ⟨kept ++ o, credentials_replace hv hat ho (unquoted_of_words hwords), ?_⟩
    exact ⟨originals rest, by simp [Segment.original]⟩

/-- No connection string is left when all of them have been replaced. -/
theorem free_connectionString_sub (text : List Char) :
    (connectionStringPattern w).Free
      ((connectionStringPattern w).sub (marker "connection_string") text) := by
  intro front back n hout hat
  have hedged : Edged (connectionStringPattern w) :=
    Detector.edged w (fun _ => true) .connectionString (by decide)
  obtain ⟨qs, c, ps, literal, v, hscan, hleft, -, hps, hv, hwords⟩ :=
    connection_kept w .connectionString hedged hout hat
  obtain ⟨v', hv', hpre⟩ := credentials_of_shown w hv hps hscan
  obtain ⟨rest, hrest⟩ := hpre
  rw [List.append_assoc, List.cons_append] at hscan
  have hnone : (connectionStringPattern w).find (before none (originals qs))
      (originals (.kept c :: (literal.map .kept ++ ps))) = none :=
    (connectionStringPattern w).finds_of_scan _ hscan
  obtain ⟨k, hk⟩ := (reads_connectionStringPattern w).complete _ _
    (originals (.kept c :: (literal.map .kept ++ ps))) hleft (hwords v' hv')
    ⟨rest, by simp [Segment.original, ← hrest]⟩
  rw [hnone] at hk
  cases hk

variable (highEntropy : List Char → Bool)

/-- A connection string is only left with the marker of a token in it. -/
def ConnectionsHaveMarkers (text : List Char) : Prop :=
  ∀ front back n, text = front ++ back → (connectionStringPattern w).At front back n →
    marker "high_entropy_token" <:+: back.take n

/-- What the tokens leave of a text without connection strings. -/
theorem connectionsHaveMarkers_sub {text : List Char} (hfree : (connectionStringPattern w).Free text) :
    ConnectionsHaveMarkers w ((entropyTokens highEntropy).sub (marker "high_entropy_token") text) := by
  intro front back n hout hat
  have hedged : Edged (entropyTokens highEntropy) :=
    Detector.edged w highEntropy .highEntropyToken (by decide)
  obtain ⟨qs, c, ps, literal, v, hscan, hleft, htake, hps, hv, hwords⟩ :=
    connection_kept w .highEntropyToken hedged hout hat
  have hnot : ∀ v', Word credentials v' → ¬ v' <+: originals ps := by
    rintro v' hv' ⟨rest, hrest⟩
    obtain ⟨k, hk⟩ := (reads_connectionStringPattern w).complete _ _
      (originals (.kept c :: (literal.map .kept ++ ps))) hleft (hwords v' hv')
      ⟨rest, by simp [Segment.original, ← hrest]⟩
    apply hfree (originals qs) _ k _ hk
    rw [List.append_assoc, List.cons_append] at hscan
    rw [← Substitution.originals_append, ← hscan, Matcher.originals_scan]
  rcases Substitution.prefix_originals_or_mark hps with
    hprefix | ⟨kept, v₂, s, o, rest, rfl, rfl, hbehind⟩
  · exact absurd hprefix (hnot v hv)
  · rw [← List.append_assoc] at hscan
    obtain ⟨-, hs, -⟩ := (entropyTokens highEntropy).finds_of_scan _ hscan
    have hs : s = marker "high_entropy_token" := hs
    rcases List.append_eq_append_iff.mp hbehind with ⟨t, ht, hdrop⟩ | ⟨t, rfl, -⟩
    · cases t with
      | nil =>
        rw [List.append_nil] at ht
        rw [htake, ← hs, ht]
        exact ⟨c :: literal ++ kept, [], by simp⟩
      | cons d t =>
        -- the host would go on in the marker
        have hquoted := head_of_connectionString w hat d (by rw [hdrop]; rfl)
        have hmem : d ∈ marker "high_entropy_token" := by
          rw [← hs, ht]
          simp
        have hplain := unquoted_nil_of_unquoted (marker_chars .highEntropyToken d hmem).1
        rw [hquoted] at hplain
        cases hplain
    · -- the whole marker is in the credentials
      rw [htake, ← hs]
      exact ⟨c :: literal ++ kept, t, by simp⟩

end Connections

/-! ## Tokens -/

section Tokens

variable (highEntropy : List Char → Bool)

/-- No token is left when all of them have been replaced. -/
theorem free_entropyTokens_sub (text : List Char) :
    (entropyTokens highEntropy).Free
      ((entropyTokens highEntropy).sub (marker "high_entropy_token") text) := by
  intro front back n hout hat
  obtain ⟨hprev, hleast, hn, htake, hhead, hentropy⟩ := token_of_find highEntropy hat
  generalize hrun : back.takeWhile isTokenChar = run at hn htake hentropy
  have htoken : ∀ c ∈ run, isTokenChar c = true := by
    intro c hc
    rw [← hrun] at hc
    exact List.mem_takeWhile_imp hc
  have hnot : ∀ c, isTokenChar c = false → c ∉ run := by
    intro c hc hmem
    rw [htoken c hmem] at hc
    cases hc
  have hne : run ≠ [] := by
    rintro rfl
    rw [hn] at hleast
    simp at hleast
  rw [← List.take_append_drop n back, htake] at hout
  obtain ⟨qs, ps, hscan, rfl, hps⟩ := kept_of_sub .highEntropyToken hne (hnot '[' (by decide))
    (hnot ']' (by decide)) (not_infix_body .highEntropyToken (hnot ':' (by decide)) (hn ▸ hleast))
    hout
  obtain ⟨c, run', rfl⟩ := List.exists_cons_of_ne_nil hne
  have hc := htoken c List.mem_cons_self
  rw [List.map_cons, List.append_assoc, List.cons_append] at hscan
  -- the run has the same ends in the text
  have hprev' : (before none (originals qs)).any isTokenChar = false := by
    rcases List.eq_nil_or_concat' qs with rfl | ⟨qs, q, rfl⟩
    · exact hprev
    · cases q with
      | kept a =>
        simp only [Substitution.shown_append, Substitution.originals_append,
          Substitution.before_append] at hprev ⊢
        exact hprev
      | mark s o =>
        rw [List.append_assoc] at hscan
        obtain ⟨hfind, -, -⟩ := (entropyTokens highEntropy).finds_of_scan _ hscan
        obtain ⟨-, -, -, -, hend, -⟩ := token_of_find highEntropy hfind
        rw [Substitution.originals_cons, Segment.original, List.drop_left] at hend
        have := hend c rfl
        rw [hc] at this
        cases this
  have hend : ∀ d ∈ (originals ps).head?, isTokenChar d = false := by
    cases ps with
    | nil => simp
    | cons p ps =>
      cases p with
      | kept d =>
        rw [← hps] at hhead
        exact hhead
      | mark s o =>
        -- no token begins inside of a run
        have hscan' : (entropyTokens highEntropy).scan (fun _ => marker "high_entropy_token") 0
            none text = (qs ++ (c :: run').map .kept) ++ .mark s o :: ps := by
          rw [List.map_cons, List.append_assoc, List.cons_append]
          exact hscan
        obtain ⟨hfind, -, -⟩ := (entropyTokens highEntropy).finds_of_scan _ hscan'
        obtain ⟨run'', d, hlast⟩ := (List.eq_nil_or_concat' (c :: run')).resolve_left hne
        rw [Substitution.originals_append, Substitution.originals_map_kept, hlast,
          ← List.append_assoc, Substitution.before_append, Substitution.before_cons,
          Substitution.before_nil, find_inside_run] at hfind
        · cases hfind
        · exact htoken d (by rw [hlast]; simp)
  have htext : originals (.kept c :: (run'.map .kept ++ ps)) = c :: run' ++ originals ps := by
    simp [Segment.original]
  have hrun' : (c :: run' ++ originals ps).takeWhile isTokenChar = c :: run' :=
    (RunPattern.takeWhile_append_of_all htoken hend).1
  have hfind := find_of_token highEntropy hprev' (hrun'.symm ▸ (hn ▸ hleast)) (hrun'.symm ▸ hentropy)
  have hnone : (entropyTokens highEntropy).find (before none (originals qs))
      (originals (.kept c :: (run'.map .kept ++ ps))) = none :=
    (entropyTokens highEntropy).finds_of_scan _ hscan
  rw [htext, hfind] at hnone
  cases hnone

end Tokens

/-! ## The run of the detectors -/

section Run

variable (w : WordChars) (highEntropy : List Char → Bool)

/-- The text behind some detectors. -/
def redactedBy (detectors : List Detector) (text : List Char) : List Char :=
  detectors.foldl (fun text d => (d.redact w highEntropy text).1) text

theorem redactedBy_concat (detectors : List Detector) (d : Detector) (text : List Char) :
    redactedBy w highEntropy (detectors ++ [d]) text =
      (d.matcher w highEntropy).sub (marker d.name) (redactedBy w highEntropy detectors text) := by
  rw [redactedBy, List.foldl_concat, Detector.redact_eq]
  rfl

theorem redactedBy_append (ds es : List Detector) (text : List Char) :
    redactedBy w highEntropy (ds ++ es) text =
      redactedBy w highEntropy es (redactedBy w highEntropy ds text) :=
  List.foldl_append

theorem fst_runDetectors (detectors : List Detector) (text : List Char) :
    (runDetectors w highEntropy detectors text).1 = redactedBy w highEntropy detectors text := by
  induction detectors using List.reverseRecOn with
  | nil => rfl
  | append_singleton detectors d ih =>
    rw [runDetectors, redactedBy] at ih
    rw [runDetectors, redactedBy, List.foldl_concat, List.foldl_concat, ← ih]
    rfl

/-- Without extra patterns, `redact_text` runs the built-in detectors. -/
theorem redactText_nil (text : String) :
    redactText w highEntropy [] text =
      .ok (String.ofList (runDetectors w highEntropy builtinDetectors text.toList).1,
        (runDetectors w highEntropy builtinDetectors text.toList).2) := by
  rw [redactText]
  generalize runDetectors w highEntropy builtinDetectors text.toList = acc
  obtain ⟨redacted, counts⟩ := acc
  simp

/-- Detectors that find nothing change nothing. -/
theorem runDetectors_of_clean {detectors : List Detector} {text : List Char}
    (h : ∀ d ∈ detectors, d.redact w highEntropy text = (text, 0)) :
    runDetectors w highEntropy detectors text = (text, []) := by
  induction detectors using List.reverseRecOn with
  | nil => rfl
  | append_singleton detectors d ih =>
    have hrest := ih fun e he => h e (List.mem_append_left _ he)
    rw [runDetectors] at hrest ⊢
    rw [List.foldl_concat, hrest, runDetector, h d (by simp)]
    rfl

/-- What every one of some detectors preserves, their run preserves. -/
theorem redactedBy_preserves {P : List Char → Prop} {detectors : List Detector}
    (hstep : ∀ e ∈ detectors, ∀ text, P text →
      P ((e.matcher w highEntropy).sub (marker e.name) text))
    {text : List Char} (h : P text) : P (redactedBy w highEntropy detectors text) := by
  induction detectors using List.reverseRecOn with
  | nil => exact h
  | append_singleton detectors d ih =>
    rw [redactedBy_concat]
    exact hstep d (by simp) _ (ih fun e he => hstep e (List.mem_append_left _ he))

/-- The place of a detector in the fixed order. -/
def Detector.rank (d : Detector) : Nat := builtinDetectors.idxOf d

/-- Some detectors in the fixed order. -/
theorem pairwise_rank {detectors : List Detector} (h : detectors.Sublist builtinDetectors) :
    detectors.Pairwise fun d e => d.rank < e.rank := by
  have hall : builtinDetectors.Pairwise fun d e => d.rank < e.rank := by decide
  exact hall.sublist h

theorem ne_apiKey_of_rank {d e : Detector} (h : d.rank < e.rank) : e ≠ .apiKey := by
  rintro rfl
  exact Nat.not_lt_zero _ h

/-- The run keeps every character but those that it replaces by markers. -/
theorem marked_redactedBy {detectors : List Detector}
    (h : detectors.Pairwise fun d e => d.rank < e.rank) (text : List Char) :
    Marked (detectors.map fun d => marker d.name) text
      (redactedBy w highEntropy detectors text) := by
  induction detectors using List.reverseRecOn with
  | nil => exact Marked.refl text
  | append_singleton detectors d ih =>
    obtain ⟨hrest, -, hlast⟩ := List.pairwise_append.mp h
    have hspares : ∀ s ∈ detectors.map (fun d => marker d.name),
        (d.matcher w highEntropy).Spares s := by
      intro s hs
      obtain ⟨e, he, rfl⟩ := List.mem_map.mp hs
      exact d.spares w highEntropy
        (ne_apiKey_of_rank (hlast e he d (List.mem_singleton_self d))) e
    rw [redactedBy_concat]
    refine ((ih hrest).sub hspares).mono ?_
    rw [List.map_append, List.map_singleton]
    intro s hs
    rcases List.mem_cons.mp hs with rfl | hs
    · simp
    · exact List.mem_append_left _ hs

/-- What is left behind some detectors. -/
structure RedactionResidue (detectors : List Detector) (text out : List Char) : Prop where
  /-- Characters are kept in order, and the others are replaced by markers. -/
  marked : Marked (detectors.map fun d => marker d.name) text out
  /-- Most detectors find nothing in the output. -/
  clean : ∀ d ∈ detectors, d ≠ .apiKey → d ≠ .connectionString →
    d.redact w highEntropy out = (out, 0)
  /-- A key is only found behind the marker of another one. -/
  keys : .apiKey ∈ detectors → KeysBehindMarkers out
  /-- A connection string is only found with the marker of a token in it. -/
  connections : .connectionString ∈ detectors →
    (connectionStringPattern w).Free out ∨
      .highEntropyToken ∈ detectors ∧ ConnectionsHaveMarkers w out
  /-- If there is no such key and no such connection string, nothing is found again. -/
  fixed : apiKeyPattern.Free out → (connectionStringPattern w).Free out →
    runDetectors w highEntropy detectors out = (out, [])

theorem redact_of_free {d : Detector} {text : List Char} (h : (d.matcher w highEntropy).Free text) :
    d.redact w highEntropy text = (text, 0) := by
  obtain ⟨hsub, hcount⟩ := h.sub (marker d.name)
  rw [Detector.redact_eq, hsub, hcount]

section Split

variable {front back : List Detector} {d : Detector} {text : List Char}
  (hback : ∀ e ∈ back, d.rank < e.rank)

include hback

/-- What holds behind a detector and is preserved by those behind it holds at the end. -/
theorem redactedBy_split {P : List Char → Prop}
    (hd : ∀ text, P ((d.matcher w highEntropy).sub (marker d.name) text))
    (hstep : ∀ e : Detector, d.rank < e.rank → ∀ text, P text →
      P ((e.matcher w highEntropy).sub (marker e.name) text)) :
    P (redactedBy w highEntropy (front ++ d :: back) text) := by
  rw [List.append_cons, redactedBy_append, redactedBy_concat]
  exact redactedBy_preserves w highEntropy (fun e he => hstep e (hback e he)) (hd _)

/-- Nothing is left of what these detectors replace. -/
theorem free_redactedBy (hkey : d ≠ .apiKey) (hconnection : d ≠ .connectionString) :
    (d.matcher w highEntropy).Free (redactedBy w highEntropy (front ++ d :: back) text) := by
  cases d with
  | apiKey => exact absurd rfl hkey
  | connectionString => exact absurd rfl hconnection
  | jwt =>
    apply redactedBy_split w highEntropy hback
    · intro text
      exact free_sub_self (reads_jwtPattern w) spelled_jwtShape bracketless_jwtShape
        w.isWord_dash .jwt (Detector.edged w highEntropy .jwt hkey) text
    · intro e he text hfree
      exact free_sub_of_edged (reads_jwtPattern w) spelled_jwtShape bracketless_jwtShape
        w.isWord_dash e (e.edged w highEntropy (ne_apiKey_of_rank he)) hfree
  | privateKey =>
    apply redactedBy_split w highEntropy hback
    · intro text
      exact free_privateKey_sub .privateKey fun qs c ps hscan =>
        privateKeyPattern.finds_of_scan _ hscan
    · intro e _ text hfree
      refine free_privateKey_sub e fun qs c ps hscan => ?_
      cases hfind : privateKeyPattern.find (before none (originals qs))
          (originals (.kept c :: ps)) with
      | none => rfl
      | some n =>
        refine absurd hfind (hfree _ _ n ?_)
        rw [← Substitution.originals_append, ← hscan, Matcher.originals_scan]
  | highEntropyToken =>
    apply redactedBy_split w highEntropy hback
    · exact free_entropyTokens_sub highEntropy
    · intro e he
      cases e <;> exact absurd he (by decide)

end Split

/-- The fixed order has nothing but the tokens behind the connection strings. -/
theorem behind_connectionString {back : List Detector}
    (hback : ∀ e ∈ back, Detector.connectionString.rank < e.rank)
    (h : back.Pairwise fun d e => d.rank < e.rank) : back = [] ∨ back = [.highEntropyToken] := by
  have htoken : ∀ e ∈ back, e = .highEntropyToken := by
    intro e he
    have hrank := hback e he
    cases e with
    | highEntropyToken => rfl
    | apiKey => exact absurd hrank (by decide)
    | jwt => exact absurd hrank (by decide)
    | privateKey => exact absurd hrank (by decide)
    | connectionString => exact absurd hrank (by decide)
  cases back with
  | nil => exact .inl rfl
  | cons e back =>
    cases back with
    | nil => exact .inr (by rw [htoken e List.mem_cons_self])
    | cons e' back =>
      have hlt := (List.pairwise_cons.mp h).1 e' List.mem_cons_self
      rw [htoken e List.mem_cons_self, htoken e' (by simp)] at hlt
      exact absurd hlt (Nat.lt_irrefl _)

/-- The keys that are left behind the run. -/
theorem keysBehindMarkers_redactedBy {front back : List Detector}
    (hback : ∀ e ∈ back, Detector.apiKey.rank < e.rank) (text : List Char) :
    KeysBehindMarkers (redactedBy w highEntropy (front ++ .apiKey :: back) text) := by
  apply redactedBy_split w highEntropy hback
  · exact keysBehindMarkers_sub
  · intro e he text hkeys
    have hne := ne_apiKey_of_rank he
    exact hkeys.sub e (e.edged w highEntropy hne) (e.spares w highEntropy hne .apiKey)

/-- The connection strings that are left behind the run. -/
theorem connections_redactedBy {front back : List Detector}
    (hback : ∀ e ∈ back, Detector.connectionString.rank < e.rank)
    (h : back.Pairwise fun d e => d.rank < e.rank) (text : List Char) :
    (connectionStringPattern w).Free
        (redactedBy w highEntropy (front ++ .connectionString :: back) text) ∨
      Detector.highEntropyToken ∈ back ∧ ConnectionsHaveMarkers w
        (redactedBy w highEntropy (front ++ .connectionString :: back) text) := by
  rcases behind_connectionString hback h with rfl | rfl
  · rw [redactedBy_concat]
    exact .inl (free_connectionString_sub w _)
  · rw [List.append_cons, redactedBy_concat, redactedBy_concat]
    exact .inr ⟨List.mem_cons_self,
      connectionsHaveMarkers_sub w highEntropy (free_connectionString_sub w _)⟩

end Run

/-- What any of the built-in detectors in their fixed order leave: a text with markers, in
    which only keys right behind the marker of a key, and connection strings with the marker
    of a token in them, are found again. -/
theorem runDetectors_residue (w : WordChars) (highEntropy : List Char → Bool)
    {detectors : List Detector} (h : detectors.Sublist builtinDetectors) (text : List Char) :
    RedactionResidue w highEntropy detectors text (runDetectors w highEntropy detectors text).1 := by
  have horder := pairwise_rank h
  rw [fst_runDetectors]
  -- the detectors behind one bring nothing new for it
  have hclean : ∀ d ∈ detectors, d ≠ .apiKey → d ≠ .connectionString →
      d.redact w highEntropy (redactedBy w highEntropy detectors text) =
        (redactedBy w highEntropy detectors text, 0) := by
    intro d hd hkey hconnection
    obtain ⟨front, back, rfl⟩ := List.mem_iff_append.mp hd
    have hback := (List.pairwise_cons.mp (List.pairwise_append.mp horder).2.1).1
    exact redact_of_free w highEntropy (free_redactedBy w highEntropy hback hkey hconnection)
  refine ⟨marked_redactedBy w highEntropy horder text, hclean, ?_, ?_, ?_⟩
  · intro hd
    obtain ⟨front, back, rfl⟩ := List.mem_iff_append.mp hd
    have hback := (List.pairwise_cons.mp (List.pairwise_append.mp horder).2.1).1
    exact keysBehindMarkers_redactedBy w highEntropy hback text
  · intro hd
    obtain ⟨front, back, rfl⟩ := List.mem_iff_append.mp hd
    obtain ⟨hback, hrest⟩ := List.pairwise_cons.mp (List.pairwise_append.mp horder).2.1
    refine (connections_redactedBy w highEntropy hback hrest text).imp_right ?_
    rintro ⟨htoken, hmarkers⟩
    exact ⟨List.mem_append_right _ (List.mem_cons_of_mem _ htoken), hmarkers⟩
  · intro hkeys hconnections
    apply runDetectors_of_clean
    intro d hd
    by_cases hkey : d = .apiKey
    · rw [hkey]
      exact redact_of_free w highEntropy hkeys
    · by_cases hconnection : d = .connectionString
      · rw [hconnection]
        exact redact_of_free w highEntropy hconnections
      · exact hclean d hd hkey hconnection

/-- `\w` without the letters and digits of other scripts. -/
def asciiWords : WordChars where
  isWord := asciiOr ['_']
  ascii _ _ := rfl

/-- All detectors, on a text with a token in the place of a user name and a password. -/
theorem runDetectors_residue_all :
    builtinDetectors.Sublist builtinDetectors ∧
      RedactionResidue asciiWords (fun _ => true) builtinDetectors
        "redis://a.0123456789abcdefghijklmnop@host".toList
        (runDetectors asciiWords (fun _ => true) builtinDetectors
          "redis://a.0123456789abcdefghijklmnop@host".toList).1 :=
  ⟨List.Sublist.refl _, runDetectors_residue asciiWords (fun _ => true) (List.Sublist.refl _)
    "redis://a.0123456789abcdefghijklmnop@host".toList⟩

/-- Two keys of a fixed length without anything between them: the second one is visible when
    the first one has been replaced. -/
theorem runDetectors_not_fixed :
    ¬ ∀ (w : WordChars) (highEntropy : List Char → Bool) (detectors : List Detector),
      detectors.Sublist builtinDetectors → ∀ text : List Char,
        (∀ d ∈ detectors, d.redact w highEntropy (runDetectors w highEntropy detectors text).1 =
            ((runDetectors w highEntropy detectors text).1, 0)) ∧
          runDetectors w highEntropy detectors (runDetectors w highEntropy detectors text).1 =
            ((runDetectors w highEntropy detectors text).1, []) ∧
          Marked (detectors.map fun d => marker d.name) text
            (runDetectors w highEntropy detectors text).1 := by
  intro h
  obtain ⟨-, hsecond, -⟩ := h asciiWords (fun _ => true) builtinDetectors (List.Sublist.refl _)
    "AKIA0000000000000000AKIA1111111111111111".toList
  have hfirst : (runDetectors asciiWords (fun _ => true) builtinDetectors
      "AKIA0000000000000000AKIA1111111111111111".toList).1 =
        "[redacted:api_key]AKIA1111111111111111".toList := by
    decide
  rw [hfirst] at hsecond
  exact absurd hsecond (by decide)

end Inherent
