import Inherent.Spec.SubtitleBlocks
import Inherent.Spec.SubtitleTimes

/-!
# The cues of a subtitle file

In a block the parser takes the first line that has two timestamps, both with two digits for
the hours.  SRT has no others; WebVTT may leave the hours out or give them more digits, and
`keepsCues_iff` says which cues are found then.
-/

namespace Inherent

/-! ## Formats -/

structure SubtitleCue where
  start : CueTime
  stop : CueTime
  payload : List (List Char)

/-- The text of a cue: its pieces on one line. -/
def SubtitleCue.text (cue : SubtitleCue) : List Char :=
  PyStr.strip (PyStr.join [' '] (cue.payload.flatMap linePieces))

/-- A block of a file and the cue that it is, if it is one: an identifier may stand before the
    times, and other blocks (headers, notes) have no arrow. -/
inductive SubtitleBlock (f : SubtitleFormat) : List (List Char) → Option SubtitleCue → Prop
  | cue (identifier : Option (List Char)) (cue : SubtitleCue) (before after settings : List Char)
      (hidentifier : ∀ line ∈ identifier, NoArrow line)
      (hstart : f.HasTime cue.start) (hstop : f.HasTime cue.stop)
      (hblanks : ∀ c ∈ before ++ after, c = ' ' ∨ c = '\t')
      (hsettings : CueSettings settings)
      (hpayload : f = .webVtt → ∀ line ∈ cue.payload, NoArrow line) :
      SubtitleBlock f
        (identifier.toList ++
          timingLine f cue.start cue.stop before after settings :: cue.payload) (some cue)
  | other (lines : List (List Char)) (h : ∀ line ∈ lines, NoArrow line) : SubtitleBlock f lines none

/-- The cues of a file that say something. -/
def spokenCues (contents : List (Option SubtitleCue)) : List SubtitleCue :=
  contents.filterMap fun content => content.filter fun cue => cue.text ≠ []

/-- A parsed cue is the given one: a timestamp of its start, and its text. -/
def CueIs (f : SubtitleFormat) (parsed : List Char × List Char) (cue : SubtitleCue) : Prop :=
  (∃ t : CueTime, parsed.1 = t.print f.point ∧ t.total = cue.start.total) ∧ parsed.2 = cue.text

/-- The transcript of cues: before every tenth one stands its start in minutes and seconds. -/
def transcript (cues : List SubtitleCue) : List Char :=
  PyStr.join [' '] (cues.zipIdx.flatMap fun p =>
    if p.2 % 10 = 0 then
      ["[t=".toList ++ PyStr.pad2 (p.1.start.total / 60000 : Nat) ++ ":".toList ++
        PyStr.pad2 (p.1.start.total / 1000 % 60 : Nat) ++ "]".toList, p.1.text]
    else [p.1.text])

/-- The cues of a file are found, and its transcript is the extracted text. -/
structure KeepsCues (f : SubtitleFormat) (text : List Char)
    (contents : List (Option SubtitleCue)) : Prop where
  parsed : List.Forall₂ (CueIs f) (parseSubtitleCues text) (spokenCues contents)
  extracted : spokenCues contents ≠ [] → ∀ decode content filename, decode content = text →
    extractSubtitleText decode content filename = .ok (transcript (spokenCues contents))

/-- A cue with two digits of hours at its end, and hours below a hundred at its start. -/
structure TwoDigitHours (cue : SubtitleCue) : Prop where
  start : cue.start.hours ≠ [] ∧ cue.start.hourCount < 100
  stop : cue.stop.hours.length = 2

/-! ## Reading a block -/

theorem NoArrow.pieces {line piece : List Char} (h : NoArrow line)
    (hpiece : piece ∈ linePieces line) : NoArrow piece :=
  fun harrow => h (harrow.trans (MaximalRuns.infix_of_mem_splitOnP (List.mem_of_mem_filter hpiece)))

theorem findTimestamps?_append {lines : List (List Char)} (h : ∀ line ∈ lines, NoArrow line)
    (rest : List (List Char)) : findTimestamps? (lines ++ rest) = findTimestamps? rest := by
  induction lines with
  | nil => rfl
  | cons line lines ih =>
    rw [List.cons_append, findTimestamps?, searchTimestamps?_of_noArrow (h line List.mem_cons_self)]
    exact ih fun other hother => h other (List.mem_cons_of_mem _ hother)

/-- The pieces of lines without arrows show no times. -/
theorem findTimestamps?_pieces {lines : List (List Char)} (h : ∀ line ∈ lines, NoArrow line)
    (rest : List (List Char)) :
    findTimestamps? (lines.flatMap linePieces ++ rest) = findTimestamps? rest := by
  refine findTimestamps?_append (fun piece hpiece => ?_) rest
  obtain ⟨line, hline, hpiece⟩ := List.mem_flatMap.mp hpiece
  exact (h line hline).pieces hpiece

theorem cueOfLines?_of_noArrow {lines : List (List Char)} (h : ∀ line ∈ lines, NoArrow line) :
    cueOfLines? (lines.flatMap linePieces) = none := by
  have hnone := findTimestamps?_pieces h []
  rw [List.append_nil] at hnone
  rw [cueOfLines?, hnone]
  rfl

/-- The line with the times is one piece. -/
theorem linePieces_timingLine {f : SubtitleFormat} {start stop : CueTime}
    {before after settings : List Char} (hblanks : ∀ c ∈ before ++ after, c = ' ' ∨ c = '\t')
    (hsettings : CueSettings settings) :
    linePieces (timingLine f start stop before after settings) =
      [timingLine f start stop before after settings] := by
  -- no part of the line has a line end
  have hbreak : ∀ c ∈ timingLine f start stop before after settings,
      PyStr.isLineBreak c = false := by
    intro c hc
    have hkept : PyStr.isSpace c = false → PyStr.isLineBreak c = false := by
      intro hspace
      by_contra hend
      rw [PyStr.isSpace_of_isLineBreak (by simpa using hend)] at hspace
      cases hspace
    have hblank : c = ' ' ∨ c = '\t' → PyStr.isLineBreak c = false := by
      rintro (rfl | rfl) <;> decide
    simp only [timingLine, List.mem_append] at hc
    rcases hc with ((hc | hc) | hc) | (hc | hc) | hc
    · exact hkept (notSpace_of_mem_print hc).1
    · exact hblank (hblanks c (List.mem_append_left _ hc))
    · simp only [String.reduceToList, List.mem_cons, List.not_mem_nil, or_false] at hc
      rcases hc with rfl | rfl | rfl <;> decide
    · exact hblank (hblanks c (List.mem_append_right _ hc))
    · exact hkept (notSpace_of_mem_print hc).1
    · rcases hsettings.chars c hc with h | h | h
      · exact hblank (.inl h)
      · exact hblank (.inr h)
      · exact hkept h
  -- the arrow is not whitespace
  have hspoken : isBlankLine (timingLine f start stop before after settings) = false := by
    by_contra hblank
    rw [Bool.not_eq_false, isBlankLine, List.all_eq_true] at hblank
    have := hblank '-' (by simp [timingLine])
    revert this
    decide
  rw [linePieces, List.splitOnP_eq_singleton hbreak, List.filter_singleton, hspoken]
  rfl

/-- The cue that the parser makes of a block with a cue. -/
theorem cueOfLines?_cue {f : SubtitleFormat} {block : List (List Char)} {cue : SubtitleCue}
    (h : SubtitleBlock f block (some cue)) :
    cueOfLines? (block.flatMap linePieces) =
      if (cue.start.hours ≠ [] ∧ cue.stop.hours.length = 2) ∧ cue.text ≠ [] then
        some (cue.start.lastTwo.print f.point, cue.text)
      else none := by
  obtain ⟨identifier, _, before, after, settings, hidentifier, hstart, hstop, hblanks, hsettings,
    hpayload⟩ := h
  have hsearch := searchTimestamps?_timingLine hstart hstop
    (fun c hc => hblanks c (List.mem_append_left _ hc))
    (fun c hc => hblanks c (List.mem_append_right _ hc)) hsettings.noArrow
  -- nothing before the times shows any
  have hfind : findTimestamps? ((identifier.toList ++
      timingLine f cue.start cue.stop before after settings :: cue.payload).flatMap linePieces) =
        findTimestamps? (timingLine f cue.start cue.stop before after settings ::
          cue.payload.flatMap linePieces) := by
    rw [List.flatMap_append, List.flatMap_cons, linePieces_timingLine hblanks hsettings]
    exact findTimestamps?_pieces (fun line hline => hidentifier line (by simpa using hline)) _
  rw [cueOfLines?, hfind, findTimestamps?, hsearch]
  by_cases htimes : cue.start.hours ≠ [] ∧ cue.stop.hours.length = 2
  · rw [if_pos htimes]
    by_cases htext : cue.text = []
    · simp only [htext, ne_eq, not_true_eq_false, and_false, if_false]
      show (if cue.text = [] then _ else _) = _
      rw [if_pos htext]
    · rw [if_pos ⟨htimes, htext⟩]
      show (if cue.text = [] then _ else _) = _
      rw [if_neg htext]
      rfl
  · rw [if_neg htimes, if_neg fun h => htimes h.1]
    -- the payload shows no times either: only in WebVTT can the hours be others
    have hformat : f = .webVtt := by
      cases f with
      | webVtt => rfl
      | srt =>
        refine absurd ⟨fun hnil => ?_, hstop⟩ htimes
        rw [SubtitleFormat.HasTime, hnil] at hstart
        cases hstart
    have hnone := findTimestamps?_pieces (hpayload hformat) []
    rw [List.append_nil] at hnone
    simp only [hnone]
    rfl

/-! ## Reading a file -/

section

variable {α β γ : Type} {R : β → γ → Prop} {f : α → Option β} {g : α → Option γ}

theorem length_filterMap_le (hfg : ∀ a, (f a).isSome = true → (g a).isSome = true) (l : List α) :
    (l.filterMap f).length ≤ (l.filterMap g).length := by
  induction l with
  | nil => simp
  | cons a l ih =>
    have ha := hfg a
    rw [List.filterMap_cons, List.filterMap_cons]
    cases hf : f a with
    | none =>
      cases g a with
      | none => exact ih
      | some c => exact ih.trans (Nat.le_succ _)
    | some b =>
      rw [hf] at ha
      obtain ⟨c, hc⟩ := Option.isSome_iff_exists.mp (ha rfl)
      simpa [hc] using ih

/-- Where `f` finds nothing that `g` does not, the findings of both are related one by one only
    if they are at every place. -/
theorem forall₂_filterMap_iff (hfg : ∀ a, (f a).isSome = true → (g a).isSome = true)
    (l : List α) :
    List.Forall₂ R (l.filterMap f) (l.filterMap g) ↔
      ∀ a ∈ l, ∀ c, g a = some c → ∃ b, f a = some b ∧ R b c := by
  induction l with
  | nil => simp
  | cons a l ih =>
    have ha := hfg a
    rw [List.filterMap_cons, List.filterMap_cons, List.forall_mem_cons, ← ih]
    cases hf : f a with
    | none =>
      cases hg : g a with
      | none => simp
      | some c =>
        refine ⟨fun h => ?_, fun h => ?_⟩
        · -- the one list would be longer than the other
          have hlen := h.length_eq
          have hle := length_filterMap_le hfg l
          simp only [List.length_cons] at hlen
          omega
        · obtain ⟨b, hb, -⟩ := h.1 c rfl
          cases hb
    | some b =>
      rw [hf] at ha
      obtain ⟨c, hc⟩ := Option.isSome_iff_exists.mp (ha rfl)
      simp [hc]

end

variable {f : SubtitleFormat}

/-- The cue that the parser finds in a block. -/
def foundCue (f : SubtitleFormat) (content : Option SubtitleCue) :
    Option (List Char × List Char) :=
  content.bind fun cue =>
    if (cue.start.hours ≠ [] ∧ cue.stop.hours.length = 2) ∧ cue.text ≠ [] then
      some (cue.start.lastTwo.print f.point, cue.text)
    else none

theorem parseSubtitleCues_blocks {text : List Char} {contents : List (Option SubtitleCue)}
    (h : List.Forall₂ (SubtitleBlock f) (fileBlocks text) contents) :
    parseSubtitleCues text = contents.filterMap (foundCue f) := by
  rw [parseSubtitleCues_eq]
  generalize fileBlocks text = blocks at h
  induction h with
  | nil => rfl
  | @cons block content blocks contents hblock _ ih =>
    have hfound : cueOfLines? (block.flatMap linePieces) = foundCue f content := by
      cases hblock with
      | cue identifier cue before after settings hidentifier hstart hstop hblanks hsettings
          hpayload =>
        exact cueOfLines?_cue (.cue identifier cue before after settings hidentifier hstart hstop
          hblanks hsettings hpayload)
      | other _ h => exact cueOfLines?_of_noArrow h
    rw [List.filterMap_cons, List.filterMap_cons, hfound, ih]

theorem hasTime_of_blocks {blocks : List (List (List Char))} {contents : List (Option SubtitleCue)}
    (h : List.Forall₂ (SubtitleBlock f) blocks contents) {cue : SubtitleCue}
    (hcue : some cue ∈ contents) : f.HasTime cue.start := by
  induction h with
  | nil => cases hcue
  | cons hblock _ ih =>
    rcases List.mem_cons.mp hcue with rfl | hcue
    · cases hblock with
      | cue _ _ _ _ _ _ hstart => exact hstart
    · exact ih hcue

/-- A start that is found with its last two digits is the start if there are no more hours. -/
theorem cueIs_found {cue : SubtitleCue} (h : 2 ≤ cue.start.hours.length) :
    CueIs f (cue.start.lastTwo.print f.point, cue.text) cue ↔ cue.start.hourCount < 100 := by
  rw [← total_lastTwo h]
  constructor
  · rintro ⟨⟨t, ht, htotal⟩, -⟩
    rw [print_inj ht]
    exact htotal
  · exact fun htotal => ⟨⟨_, rfl, htotal⟩, rfl⟩

theorem mem_spokenCues {contents : List (Option SubtitleCue)} {cue : SubtitleCue} :
    cue ∈ spokenCues contents ↔ some cue ∈ contents ∧ cue.text ≠ [] := by
  simp only [spokenCues, List.mem_filterMap, Option.filter_eq_some_iff, decide_eq_true_eq]
  constructor
  · rintro ⟨content, hcontent, rfl, htext⟩
    exact ⟨hcontent, htext⟩
  · rintro ⟨hcontent, htext⟩
    exact ⟨some cue, hcontent, rfl, htext⟩

theorem forall₂_cueIs_iff {text : List Char} {contents : List (Option SubtitleCue)}
    (h : List.Forall₂ (SubtitleBlock f) (fileBlocks text) contents) :
    List.Forall₂ (CueIs f) (parseSubtitleCues text) (spokenCues contents) ↔
      ∀ cue ∈ spokenCues contents, TwoDigitHours cue := by
  -- a cue that is found is one that says something
  have hsub : ∀ content : Option SubtitleCue, (foundCue f content).isSome = true →
      (content.filter fun cue => cue.text ≠ []).isSome = true := by
    intro content hfound
    cases content with
    | none => cases hfound
    | some cue =>
      rw [foundCue, Option.bind_some] at hfound
      split at hfound
      · next hcond => simp [hcond.2]
      · cases hfound
  rw [parseSubtitleCues_blocks h, spokenCues, forall₂_filterMap_iff hsub]
  constructor
  · intro hall cue hcue
    obtain ⟨hcontent, htext⟩ := mem_spokenCues.mp hcue
    obtain ⟨parsed, hparsed, hsame⟩ := hall (some cue) hcontent cue (by simp [htext])
    rw [foundCue, Option.bind_some] at hparsed
    split at hparsed
    · next hcond =>
      cases hparsed
      have htwo := two_le_hours (hasTime_of_blocks h hcontent) hcond.1.1
      exact ⟨⟨hcond.1.1, (cueIs_found htwo).mp hsame⟩, hcond.1.2⟩
    · cases hparsed
  · intro hall content hcontent cue hcue
    obtain ⟨rfl, htext⟩ := Option.filter_eq_some_iff.mp hcue
    have htext : cue.text ≠ [] := by simpa using htext
    have hgood := hall cue (mem_spokenCues.mpr ⟨hcontent, htext⟩)
    refine ⟨(cue.start.lastTwo.print f.point, cue.text), ?_,
      (cueIs_found (two_le_hours (hasTime_of_blocks h hcontent) hgood.start.1)).mpr hgood.start.2⟩
    rw [foundCue, Option.bind_some, if_pos ⟨⟨hgood.start.1, hgood.stop⟩, htext⟩]

/-! ## The transcript -/

theorem parseSubtitleCues_twoDigits {text : List Char} {contents : List (Option SubtitleCue)}
    (h : List.Forall₂ (SubtitleBlock f) (fileBlocks text) contents)
    (hgood : ∀ cue ∈ spokenCues contents, TwoDigitHours cue) :
    parseSubtitleCues text =
      (spokenCues contents).map fun cue => (cue.start.lastTwo.print f.point, cue.text) := by
  rw [parseSubtitleCues_blocks h, spokenCues, List.map_filterMap]
  refine List.filterMap_congr fun content hcontent => ?_
  cases content with
  | none => rfl
  | some cue =>
    by_cases htext : cue.text = []
    · simp [foundCue, htext]
    · have htwo := hgood cue (mem_spokenCues.mpr ⟨hcontent, htext⟩)
      simp [foundCue, htext, htwo.start.1, htwo.stop]

/-- The parts of a cue with hours in two digits. -/
theorem cueParts_twoDigits {cue : SubtitleCue} (htime : f.HasTime cue.start)
    (hgood : TwoDigitHours cue) (index : Nat) :
    cueParts index (cue.start.lastTwo.print f.point, cue.text) =
      .ok (if index % 10 = 0 then
        ["[t=".toList ++ PyStr.pad2 (cue.start.total / 60000 : Nat) ++ ":".toList ++
          PyStr.pad2 (cue.start.total / 1000 % 60 : Nat) ++ "]".toList, cue.text]
      else [cue.text]) := by
  have htwo := two_le_hours htime hgood.start.1
  rw [cueParts, timestampMarkerEveryNCues, timestampToMarker_print (length_lastTwo htwo),
    (total_lastTwo htwo).mpr hgood.start.2]
  split <;> rfl

theorem extractSubtitleText_twoDigits {text : List Char} {contents : List (Option SubtitleCue)}
    (h : List.Forall₂ (SubtitleBlock f) (fileBlocks text) contents)
    (hgood : ∀ cue ∈ spokenCues contents, TwoDigitHours cue) (hne : spokenCues contents ≠ [])
    {decode : List UInt8 → List Char} {content : List UInt8} (hdecode : decode content = text)
    (filename : String) :
    extractSubtitleText decode content filename = .ok (transcript (spokenCues contents)) := by
  have hparsed := parseSubtitleCues_twoDigits h hgood
  have hfound : parseSubtitleCues (decode content) ≠ [] := by
    rw [hdecode, hparsed]
    simpa using hne
  -- no cue fails, since every timestamp has a marker
  have hloop : ((spokenCues contents).zipIdx.map
      (Prod.map (fun cue => (cue.start.lastTwo.print f.point, cue.text)) id)).mapM
        (fun p => cueParts p.2 p.1) = .ok ((spokenCues contents).zipIdx.map fun p =>
          if p.2 % 10 = 0 then
            ["[t=".toList ++ PyStr.pad2 (p.1.start.total / 60000 : Nat) ++ ":".toList ++
              PyStr.pad2 (p.1.start.total / 1000 % 60 : Nat) ++ "]".toList, p.1.text]
          else [p.1.text]) := by
    rw [List.mapM_map]
    refine mapM_ok fun p hp => ?_
    have hcue := List.fst_mem_of_mem_zipIdx hp
    exact cueParts_twoDigits (hasTime_of_blocks h (mem_spokenCues.mp hcue).1) (hgood p.1 hcue) p.2
  unfold extractSubtitleText
  rw [hdecode] at hfound ⊢
  simp only [if_neg hfound]
  rw [hparsed, List.zipIdx_map, hloop]
  rfl

/-- The cues of a file are found if and only if those that say something have the hours in two
    digits. -/
theorem keepsCues_iff {text : List Char} {contents : List (Option SubtitleCue)}
    (h : List.Forall₂ (SubtitleBlock f) (fileBlocks text) contents) :
    KeepsCues f text contents ↔ ∀ cue ∈ spokenCues contents, TwoDigitHours cue := by
  refine ⟨fun hkeeps => (forall₂_cueIs_iff h).mp hkeeps.parsed, fun hgood => ?_⟩
  exact ⟨(forall₂_cueIs_iff h).mpr hgood, fun hne decode content filename hdecode =>
    extractSubtitleText_twoDigits h hgood hne hdecode filename⟩

/-! ## A cue with and without hours -/

theorem noSettings : CueSettings [] := by
  refine ⟨by simp, by simp, ?_⟩
  rintro ⟨before, after, h⟩
  simp at h

/-- A cue of one second. -/
def helloCue (hours : List (Fin 10)) : SubtitleCue where
  start := ⟨hours, 0, 1, 0⟩
  stop := ⟨hours, 0, 2, 0⟩
  payload := ["Hello".toList]

def helloFile (hours : List (Fin 10)) : List Char :=
  "WEBVTT\r\n\r\n".toList ++
    timingLine .webVtt (helloCue hours).start (helloCue hours).stop [' '] [' '] [] ++
    "\nHello\n".toList

theorem subtitleBlock_header : SubtitleBlock .webVtt ["WEBVTT".toList] none := by
  refine .other _ fun line hline => ?_
  rw [List.mem_singleton.mp hline, NoArrow]
  decide

theorem subtitleBlock_hello {hours : List (Fin 10)} (h : hours = [] ∨ 2 ≤ hours.length) :
    SubtitleBlock .webVtt
      [timingLine .webVtt (helloCue hours).start (helloCue hours).stop [' '] [' '] [],
        "Hello".toList] (some (helloCue hours)) := by
  refine .cue none (helloCue hours) [' '] [' '] [] (by simp) h h (by simp) noSettings
    fun _ line hline => ?_
  rw [List.mem_singleton.mp hline, NoArrow]
  decide

/-- A file whose cue has hours is read. -/
theorem keepsCues_hours :
    KeepsCues .webVtt (helloFile [0, 0]) [none, some (helloCue [0, 0])] := by
  have hblocks : fileBlocks (helloFile [0, 0]) = [["WEBVTT".toList],
      [timingLine .webVtt (helloCue [0, 0]).start (helloCue [0, 0]).stop [' '] [' '] [],
        "Hello".toList]] := by
    decide +kernel
  have hfile : List.Forall₂ (SubtitleBlock .webVtt) (fileBlocks (helloFile [0, 0]))
      [none, some (helloCue [0, 0])] := by
    rw [hblocks]
    exact .cons subtitleBlock_header (.cons (subtitleBlock_hello (.inr (by decide))) .nil)
  refine (keepsCues_iff hfile).mpr fun cue hcue => ?_
  obtain ⟨hcue, -⟩ := mem_spokenCues.mp hcue
  obtain rfl : cue = helloCue [0, 0] := by simpa using hcue
  exact ⟨by decide, rfl⟩

/-- A cue without the field of the hours is lost. -/
theorem not_keepsCues_noHours :
    List.Forall₂ (SubtitleBlock .webVtt) (fileBlocks (helloFile [])) [none, some (helloCue [])] ∧
      ¬ KeepsCues .webVtt (helloFile []) [none, some (helloCue [])] := by
  have hblocks : fileBlocks (helloFile []) = [["WEBVTT".toList],
      [timingLine .webVtt (helloCue []).start (helloCue []).stop [' '] [' '] [],
        "Hello".toList]] := by
    decide +kernel
  refine ⟨?_, fun hkeeps => ?_⟩
  · rw [hblocks]
    exact .cons subtitleBlock_header (.cons (subtitleBlock_hello (.inl rfl)) .nil)
  · have hnone : parseSubtitleCues (helloFile []) = [] := by decide +kernel
    have hspoken : (spokenCues [none, some (helloCue [])]).length = 1 := by decide
    have hlen := hkeeps.parsed.length_eq
    rw [hnone, hspoken] at hlen
    cases hlen

end Inherent
