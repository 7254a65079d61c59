import Inherent.Spec.LineBlocks
import Inherent.Spec.NumberedSections
import Inherent.Spec.SentenceChunks

/-!
# The spans of numbered sections

A section that fits into the budget is one chunk: its span is the lines of the section, from
the heading on, and its content ends with them.  A section that does not fit is split into
sentences behind its heading, and no chunk has the heading in its span; if it has no body, no
chunk is emitted for it at all.
-/

namespace Inherent

/-! ## What a chunk of a section has to be -/

/-- The line is the heading of a section. -/
def isSectionHeading (profile : ChunkingProfile) (e : TextSpan) : Bool :=
  match classifyHeading e.text profile.headingPatterns with
  | none => false
  | some h => decide (h.level ≤ profile.splitAtLevel)

/-- The lines in the span of a chunk. -/
def spanLines (text : List Char) (c : ChunkData) : List (List Char) :=
  (lineEntries (PyStr.slice text c.startChar c.endChar)).map TextSpan.text

/-- The span of the chunk has just the lines of a section: it starts at the heading that the
    chunk reports, if there is one, and has no other heading; the lines in it are whole, and
    they are what the content ends with. -/
structure ChunkData.IsSection (text : List Char) (profile : ChunkingProfile) (c : ChunkData) :
    Prop where
  whole : ∀ e ∈ contentLines text, c.Touches e → c.Holds e
  content : PyStr.strip (PyStr.join ['\n'] (spanLines text c)) <:+ c.content
  heading : (c.sectionHeading = [] ∧
      ∀ e ∈ contentLines text, c.Touches e → isSectionHeading profile e = false) ∨
    ∃ first ∈ contentLines text, isSectionHeading profile first = true ∧
      c.startChar = first.start ∧ c.sectionHeading = PyStr.strip first.text ∧
      ∀ e ∈ contentLines text, c.Touches e → e = first ∨ isSectionHeading profile e = false

/-- Every line that is not blank is in the content of a chunk that has it in its span, the
    spans are increasing, and each has the lines of a section. -/
structure PointsAtSections (text : List Char) (profile : ChunkingProfile)
    (chunks : List ChunkData) : Prop where
  contained : ∀ e ∈ contentLines text,
    ∃ c ∈ chunks, c.Holds e ∧ PyStr.strip e.text <:+: c.content
  increasing : chunks.Pairwise fun c d => c.startChar < d.startChar ∧ c.endChar < d.endChar
  exact : ∀ c ∈ chunks, c.IsSection text profile

/-- The section with the headings before it is not longer than the budget. -/
def Section.Fits (profile : ChunkingProfile) (s : Section) : Prop :=
  (sectionText s).length + (contextPrefix s).length ≤ profile.maxTokens * 4

instance Section.decidableFits (profile : ChunkingProfile) (s : Section) :
    Decidable (s.Fits profile) :=
  inferInstanceAs (Decidable (_ ≤ _))

/-! ## Lines of a part of the text -/

theorem lineEntriesFrom_append (cursor : Nat) (raws raws' : List (List Char)) :
    lineEntriesFrom cursor (raws ++ raws') =
      lineEntriesFrom cursor raws ++ lineEntriesFrom (cursor + raws.flatten.length) raws' := by
  induction raws generalizing cursor with
  | nil => rfl
  | cons raw raws ih =>
    rw [List.cons_append, lineEntriesFrom, lineEntriesFrom, ih, List.flatten_cons,
      List.length_append, Nat.add_assoc, List.cons_append]

theorem length_rstripNewlines_le (raw : List Char) :
    (PyStr.rstripNewlines raw).length ≤ raw.length := by
  obtain ⟨newline, hraw, -⟩ := PyStr.exists_append_rstripNewlines raw
  have hlen := congrArg List.length hraw
  rw [List.length_append] at hlen
  omega

/-- The lines lie in the text of the raw lines. -/
theorem lineEntriesFrom_bounds {cursor : Nat} {raws : List (List Char)} {e : TextSpan}
    (he : e ∈ lineEntriesFrom cursor raws) :
    cursor ≤ e.start ∧ e.stop ≤ cursor + raws.flatten.length := by
  induction raws generalizing cursor with
  | nil => cases he
  | cons raw raws ih =>
    have hlen := length_rstripNewlines_le raw
    rw [List.flatten_cons, List.length_append]
    cases he with
    | head => simp only; omega
    | tail _ he =>
      have := ih he
      omega

/-! ## Where the sections are -/

/-- The section with the lines before and behind it. -/
structure SectionAt (text : List Char) (profile : ChunkingProfile) (s : Section)
    (front seg back : List (List Char)) : Prop where
  raws : PyStr.splitlines text = front ++ seg ++ back
  of : SectionOf profile profile.keepParentHeading front seg s

/-- Every section is somewhere in the text. -/
theorem SectionsOf.exists_at {profile : ChunkingProfile} {keep : Bool}
    {before raws : List (List Char)} {sections : List Section}
    (h : SectionsOf profile keep before raws sections) {s : Section} (hs : s ∈ sections) :
    ∃ front seg back, raws = front ++ seg ++ back ∧ SectionOf profile keep (before ++ front) seg s := by
  induction sections generalizing before raws with
  | nil => cases hs
  | cons t sections ih =>
    obtain ⟨seg, rest, rfl, ht, hrest⟩ := h
    cases hs with
    | head => exact ⟨[], seg, rest, rfl, by rwa [List.append_nil]⟩
    | tail _ hs =>
      obtain ⟨front, seg', back, rfl, hof⟩ := ih hrest hs
      refine ⟨seg ++ front, seg', back, by simp only [List.append_assoc], ?_⟩
      rwa [← List.append_assoc]

/-- The sections lie one behind the other. -/
theorem SectionsOf.pairwise {profile : ChunkingProfile} {keep : Bool}
    {before raws : List (List Char)} {sections : List Section}
    (h : SectionsOf profile keep before raws sections) :
    sections.Pairwise fun s t => s.stop ≤ t.start := by
  induction sections generalizing before raws with
  | nil => exact .nil
  | cons s sections ih =>
    obtain ⟨seg, rest, rfl, hs, hrest⟩ := h
    refine List.pairwise_cons.mpr ⟨?_, ih hrest⟩
    intro t ht
    obtain ⟨front, seg', back, -, hof⟩ := hrest.exists_at ht
    rw [hs.stop, hof.start]
    simp only [List.flatten_append, List.length_append]
    omega

/-- Every line is one of a section. -/
theorem SectionsOf.exists_of_line {profile : ChunkingProfile} {keep : Bool}
    {before raws : List (List Char)} {sections : List Section}
    (h : SectionsOf profile keep before raws sections) {e : TextSpan}
    (he : e ∈ lineEntriesFrom before.flatten.length raws) :
    ∃ s ∈ sections, ∃ front seg back, raws = front ++ seg ++ back ∧
      SectionOf profile keep (before ++ front) seg s ∧ e ∈ lineEntriesFrom s.start seg := by
  induction sections generalizing before raws with
  | nil =>
    rw [SectionsOf] at h
    rw [h] at he
    cases he
  | cons t sections ih =>
    obtain ⟨seg, rest, rfl, ht, hrest⟩ := h
    rw [lineEntriesFrom_append, ← List.length_append, ← List.flatten_append] at he
    rcases List.mem_append.mp he with he | he
    · refine ⟨t, List.mem_cons_self, [], seg, rest, rfl, by rwa [List.append_nil], ?_⟩
      rw [ht.start]
      exact he
    · obtain ⟨s, hs, front, seg', back, rfl, hof, hmem⟩ := ih hrest he
      refine ⟨s, List.mem_cons_of_mem _ hs, seg ++ front, seg', back,
        by simp only [List.append_assoc], ?_, hmem⟩
      rwa [← List.append_assoc]

/-- The loop splits the lines of the text into the sections. -/
theorem sections_of_text (text : List Char) {profile : ChunkingProfile}
    (hnumbers : profile.CapturesNumbers) :
    SectionsOf profile profile.keepParentHeading [] (PyStr.splitlines text)
      (splitSections text profile) := by
  obtain ⟨prev, seg, hraws, h⟩ := SectionLoop.splits_foldl hnumbers (PyStr.splitlines text)
  rw [← hraws]
  have hflush := h.flush hnumbers
  rw [hraws] at hflush ⊢
  exact hflush

theorem exists_sectionAt {text : List Char} {profile : ChunkingProfile}
    (hnumbers : profile.CapturesNumbers) {s : Section} (hs : s ∈ splitSections text profile) :
    ∃ front seg back, SectionAt text profile s front seg back := by
  obtain ⟨front, seg, back, hraws, hof⟩ := (sections_of_text text hnumbers).exists_at hs
  exact ⟨front, seg, back, hraws, hof⟩

/-- The section of a line that is not blank. -/
theorem exists_sectionAt_of_line {text : List Char} {profile : ChunkingProfile}
    (hnumbers : profile.CapturesNumbers) {e : TextSpan} (he : e ∈ contentLines text) :
    ∃ s ∈ splitSections text profile, ∃ front seg back, SectionAt text profile s front seg back ∧
      e ∈ lineEntriesFrom s.start seg := by
  have hmem : e ∈ lineEntriesFrom ([] : List (List Char)).flatten.length (PyStr.splitlines text) :=
    (List.mem_filter.mp he).1
  obtain ⟨s, hs, front, seg, back, hraws, hof, hline⟩ :=
    (sections_of_text text hnumbers).exists_of_line hmem
  exact ⟨s, hs, front, seg, back, ⟨hraws, hof⟩, hline⟩

section At

variable {text : List Char} {profile : ChunkingProfile} {s : Section}
  {front seg back : List (List Char)}

/-- The text between the offsets of a section has its lines. -/
theorem SectionAt.slice (h : SectionAt text profile s front seg back) :
    PyStr.slice text s.start s.stop = seg.flatten := by
  have htext := PyStr.flatten_splitlines text
  rw [h.raws, List.flatten_append, List.flatten_append] at htext
  have hslice := PyStr.slice_append front.flatten seg.flatten back.flatten
  rw [htext] at hslice
  rw [h.of.start, h.of.stop]
  exact hslice

/-- The lines of a section are split off the text as they are. -/
theorem SectionAt.splitlines (h : SectionAt text profile s front seg back) :
    PyStr.splitlines seg.flatten = seg :=
  PyStr.splitlines_drop (PyStr.splitlines_take h.raws)

/-- A line is one of the section, or ends before it, or starts behind it. -/
theorem SectionAt.cases_line (h : SectionAt text profile s front seg back) {e : TextSpan}
    (he : e ∈ contentLines text) :
    e ∈ lineEntriesFrom s.start seg ∨ e.stop ≤ s.start ∨ s.stop ≤ e.start := by
  have hmem : e ∈ lineEntriesFrom 0 (front ++ seg ++ back) := by
    rw [← h.raws]
    exact (List.mem_filter.mp he).1
  rw [lineEntriesFrom_append, lineEntriesFrom_append, Nat.zero_add, List.flatten_append,
    List.length_append, Nat.zero_add, ← h.of.start] at hmem
  rcases List.mem_append.mp hmem with hmem | hmem
  · rcases List.mem_append.mp hmem with hmem | hmem
    · have hbound := (lineEntriesFrom_bounds hmem).2
      rw [Nat.zero_add, ← h.of.start] at hbound
      exact .inr (.inl hbound)
    · exact .inl hmem
  · have hbound := (lineEntriesFrom_bounds hmem).1
    rw [h.of.start, ← h.of.stop] at hbound
    exact .inr (.inr hbound)

/-- A line of the section lies between its offsets. -/
theorem SectionAt.bounds (h : SectionAt text profile s front seg back) {e : TextSpan}
    (he : e ∈ lineEntriesFrom s.start seg) : s.start ≤ e.start ∧ e.stop ≤ s.stop := by
  have hbounds := lineEntriesFrom_bounds he
  rw [h.of.start] at hbounds
  rw [h.of.start, h.of.stop]
  exact hbounds

/-- The line that a section starts with, if it has a heading. -/
def Section.headingLine (s : Section) : TextSpan where
  text := s.heading
  start := s.start
  stop := s.start + s.heading.length

/-- A line of the body is no heading of a section. -/
theorem SectionOf.not_heading {keep : Bool} {before seg : List (List Char)}
    (h : SectionOf profile keep before seg s) {e : TextSpan} (he : e.text ∈ s.bodyLines) :
    isSectionHeading profile e = false := by
  rw [isSectionHeading]
  cases hline : classifyHeading e.text profile.headingPatterns with
  | none => rfl
  | some heading =>
    have hdeep := h.body e.text he heading hline
    simp only [decide_eq_false_iff_not]
    omega

/-- The first line of a section is its heading, if it has one, and no other line is the
    heading of a section. -/
theorem SectionAt.entries (h : SectionAt text profile s front seg back) :
    (s.heading = [] ∧ ∀ e ∈ lineEntriesFrom s.start seg, isSectionHeading profile e = false) ∨
      isSectionHeading profile s.headingLine = true ∧
        ∃ tail, lineEntriesFrom s.start seg = s.headingLine :: tail ∧
          ∀ e ∈ tail, isSectionHeading profile e = false := by
  have hmap := map_text_lineEntriesFrom s.start seg
  rw [← h.of.lines] at hmap
  rcases h.of.kind with ⟨-, hlevel, -, hheading⟩ | ⟨hclass, hpos, hle⟩
  · rw [Section.lines, if_pos hlevel] at hmap
    refine .inl ⟨hheading, fun e he => h.of.not_heading ?_⟩
    rw [← hmap]
    exact List.mem_map_of_mem he
  · rw [Section.lines, if_neg (by omega)] at hmap
    have hlines := h.of.lines
    rw [Section.lines, if_neg (by omega)] at hlines
    cases seg with
    | nil => simp at hlines
    | cons raw seg =>
      have hraw : s.heading = PyStr.rstripNewlines raw := (List.cons.inj hlines).1
      refine .inr ⟨?_, lineEntriesFrom (s.start + raw.length) seg, ?_, fun e he =>
        h.of.not_heading ?_⟩
      · simp [isSectionHeading, Section.headingLine, hclass, hle]
      · rw [lineEntriesFrom, Section.headingLine, hraw]
      · rw [lineEntriesFrom, List.map_cons] at hmap
        rw [← (List.cons.inj hmap).2]
        exact List.mem_map_of_mem he

/-- A line of a section is one of the text. -/
theorem SectionAt.mem_lineEntries (h : SectionAt text profile s front seg back) {e : TextSpan}
    (he : e ∈ lineEntriesFrom s.start seg) : e ∈ lineEntries text := by
  rw [lineEntries, h.raws, lineEntriesFrom_append, lineEntriesFrom_append, Nat.zero_add,
    ← h.of.start]
  exact List.mem_append_left _ (List.mem_append_right _ he)

/-- A heading that is not blank is a line of the text. -/
theorem SectionAt.headingLine_mem (h : SectionAt text profile s front seg back)
    {tail : List TextSpan} (htail : lineEntriesFrom s.start seg = s.headingLine :: tail)
    (hne : PyStr.strip s.heading ≠ []) : s.headingLine ∈ contentLines text := by
  apply List.mem_filter.mpr
  rw [decide_eq_true_iff]
  exact ⟨h.mem_lineEntries (htail ▸ List.mem_cons_self), hne⟩

/-- The own text of a section is that of its lines. -/
theorem SectionOf.sectionText {keep : Bool} {before seg : List (List Char)}
    (h : SectionOf profile keep before seg s) :
    sectionText s = PyStr.strip (PyStr.join ['\n'] s.lines) := by
  rw [Inherent.sectionText, Section.lines]
  rcases h.kind with ⟨-, hlevel, -, hheading⟩ | ⟨-, hpos, -⟩
  · rw [if_pos hheading, if_pos hlevel, List.nil_append]
  · rw [if_neg (show ¬ s.level = 0 by omega)]
    by_cases hheading : s.heading = []
    · -- an empty heading adds a line end only
      rw [if_pos hheading, hheading, List.nil_append]
      cases s.bodyLines with
      | nil => rfl
      | cons line lines =>
        have hblank : PyStr.Blank ['\n'] := by
          intro c hc
          rw [List.mem_singleton.mp hc]
          rfl
        rw [PyStr.join_cons_cons, List.nil_append, PyStr.strip_blank_append hblank]
    · rw [if_neg hheading, List.singleton_append]

end At

/-! ## The chunks of a section -/

/-- The chunk with its number left out. -/
def ChunkData.unnumbered (c : ChunkData) : ChunkData := { c with chunkIndex := 0 }

/-- The chunk of a section that fits. -/
def Section.whole (documentId : String) (s : Section) : ChunkData where
  documentId := documentId
  content := PyStr.strip (contextPrefix s ++ sectionText s)
  chunkIndex := 0
  startChar := s.start
  endChar := s.stop
  sectionHeading := PyStr.strip s.heading

/-- What a chunk of a section that does not fit starts with. -/
def Section.fullPrefix (s : Section) : List Char :=
  contextPrefix s ++ if PyStr.strip s.heading = [] then [] else PyStr.strip s.heading ++ ['\n']

/-- The position that the offsets of the sentences are counted from. -/
def Section.bodyOffset (s : Section) : Nat :=
  s.start + if s.heading = [] then 0 else s.heading.length + 1

/-- The text that is split into sentences. -/
def Section.bodyText (s : Section) : List Char :=
  PyStr.strip (PyStr.join ['\n'] s.bodyLines)

/-- The chunk of some sentences of a section. -/
def Section.slice (documentId : String) (s : Section) (sub : ChunkData) : ChunkData where
  documentId := documentId
  content := PyStr.strip (s.fullPrefix ++ sub.content)
  chunkIndex := 0
  startChar := s.bodyOffset + sub.startChar
  endChar := s.bodyOffset + sub.endChar
  sectionHeading := PyStr.strip s.heading

/-- The chunks of a section, without their numbers. -/
def Section.parts (documentId : String) (profile : ChunkingProfile) (overlap : Nat)
    (s : Section) : List ChunkData :=
  if sectionText s = [] then []
  else if s.Fits profile then [s.whole documentId]
  else
    (chunkBySentences s.bodyText documentId
      (max 1 (profile.maxTokens * 4 - s.fullPrefix.length)) overlap).map (s.slice documentId)

theorem strip_heading (s : Section) :
    (if s.heading = [] then [] else PyStr.strip s.heading) = PyStr.strip s.heading := by
  split
  · rename_i hnil
    rw [hnil]
    rfl
  · rfl

/-- A loop that adds a chunk in each round. -/
theorem foldl_add (documentId : String) (heading : List Char) (content : ChunkData → List Char)
    (start stop : ChunkData → Nat) (subs : List ChunkData) (sink : ChunkSink) :
    (subs.foldl (fun sink sub => sink.add documentId (content sub) (start sub) (stop sub) heading)
        sink).chunks.map ChunkData.unnumbered =
      sink.chunks.map ChunkData.unnumbered ++ subs.map fun sub =>
        { documentId := documentId, content := content sub, chunkIndex := 0,
          startChar := start sub, endChar := stop sub, sectionHeading := heading } := by
  induction subs generalizing sink with
  | nil => simp
  | cons sub subs ih =>
    rw [List.foldl_cons, ih]
    simp [ChunkSink.add, ChunkData.unnumbered]

/-- The chunks of a section are added to those there are. -/
theorem map_unnumbered_chunkSection (documentId : String) (profile : ChunkingProfile)
    (overlap : Nat) (sink : ChunkSink) (s : Section) :
    (chunkSection documentId (profile.maxTokens * 4) overlap sink s).chunks.map
        ChunkData.unnumbered =
      sink.chunks.map ChunkData.unnumbered ++ s.parts documentId profile overlap := by
  unfold chunkSection Section.parts
  dsimp only
  rw [strip_heading]
  by_cases hblank : sectionText s = []
  · rw [if_pos hblank, if_pos hblank, List.append_nil]
  · rw [if_neg hblank, if_neg hblank]
    by_cases hfits : (sectionText s).length + (contextPrefix s).length ≤ profile.maxTokens * 4
    · have hfits' : s.Fits profile := hfits
      rw [if_pos hfits, if_pos hfits']
      simp [ChunkSink.add, ChunkData.unnumbered, Section.whole]
    · have hfits' : ¬ s.Fits profile := hfits
      rw [if_neg hfits, if_neg hfits']
      exact foldl_add ..

theorem map_unnumbered_splitNumberedSections (text : List Char) (documentId : String)
    (profile : ChunkingProfile) (overlap : Nat) :
    (splitNumberedSections text documentId profile overlap).map ChunkData.unnumbered =
      (splitSections text profile).flatMap (Section.parts documentId profile overlap) := by
  rw [splitNumberedSections]
  generalize splitSections text profile = sections
  induction sections using List.reverseRecOn with
  | nil => rfl
  | append_singleton sections s ih =>
    rw [List.foldl_concat, map_unnumbered_chunkSection, ih, List.flatMap_append,
      List.flatMap_singleton]

/-- The numbers of the chunks do not matter. -/
theorem pointsAtSections_unnumbered_iff {text : List Char} {profile : ChunkingProfile}
    {chunks : List ChunkData} :
    PointsAtSections text profile (chunks.map ChunkData.unnumbered) ↔
      PointsAtSections text profile chunks := by
  constructor
  · intro h
    refine ⟨fun e he => ?_, List.pairwise_map.mp h.increasing, fun c hc => ?_⟩
    · obtain ⟨c, hc, hholds, hinfix⟩ := h.contained e he
      obtain ⟨d, hd, rfl⟩ := List.mem_map.mp hc
      exact ⟨d, hd, hholds, hinfix⟩
    · obtain ⟨hwhole, hcontent, hheading⟩ := h.exact c.unnumbered (List.mem_map_of_mem hc)
      exact ⟨hwhole, hcontent, hheading⟩
  · intro h
    refine ⟨fun e he => ?_, List.pairwise_map.mpr h.increasing, fun c hc => ?_⟩
    · obtain ⟨c, hc, hholds, hinfix⟩ := h.contained e he
      exact ⟨c.unnumbered, List.mem_map_of_mem hc, hholds, hinfix⟩
    · obtain ⟨d, hd, rfl⟩ := List.mem_map.mp hc
      obtain ⟨hwhole, hcontent, hheading⟩ := h.exact d hd
      exact ⟨hwhole, hcontent, hheading⟩

/-! ## A section that fits -/

section Fits

variable {text : List Char} {profile : ChunkingProfile} {s : Section}
  {front seg back : List (List Char)} (documentId : String)

theorem SectionAt.spanLines_whole (h : SectionAt text profile s front seg back) :
    spanLines text (s.whole documentId) = s.lines := by
  change (lineEntriesFrom 0 (PyStr.splitlines (PyStr.slice text s.start s.stop))).map _ = _
  rw [h.slice, h.splitlines, map_text_lineEntriesFrom, h.of.lines]

/-- The chunk of a section that fits touches the lines of the section only. -/
theorem SectionAt.mem_of_touches (h : SectionAt text profile s front seg back) {e : TextSpan}
    (he : e ∈ contentLines text) (htouch : (s.whole documentId).Touches e) :
    e ∈ lineEntriesFrom s.start seg := by
  rcases h.cases_line he with hmem | hbefore | hbehind
  · exact hmem
  · exact absurd htouch.1 (Nat.not_lt.mpr hbefore)
  · exact absurd htouch.2 (Nat.not_lt.mpr hbehind)

/-- The chunk of a section that fits has just the lines of the section. -/
theorem SectionAt.isSection_whole (h : SectionAt text profile s front seg back)
    (hown : sectionText s ≠ []) : (s.whole documentId).IsSection text profile where
  whole := fun e he htouch => h.bounds (h.mem_of_touches documentId he htouch)
  content := by
    rw [h.spanLines_whole, ← h.of.sectionText]
    have hown' : PyStr.strip (PyStr.join ['\n'] s.lines) ≠ [] := by
      rwa [← h.of.sectionText]
    have hsuffix := PyStr.suffix_strip_append (contextPrefix s) hown'
    rwa [← h.of.sectionText] at hsuffix
  heading := by
    rcases h.entries with ⟨hnil, hbody⟩ | ⟨hline, tail, htail, hbody⟩
    · refine .inl ⟨?_, fun e he htouch => hbody e (h.mem_of_touches documentId he htouch)⟩
      change PyStr.strip s.heading = []
      rw [hnil]
      rfl
    · have hcases : ∀ e ∈ contentLines text, (s.whole documentId).Touches e →
          e = s.headingLine ∨ isSectionHeading profile e = false := by
        intro e he htouch
        have hmem := h.mem_of_touches documentId he htouch
        rw [htail] at hmem
        exact (List.mem_cons.mp hmem).imp_right (hbody e)
      by_cases hblank : PyStr.strip s.heading = []
      · -- a heading that is blank is no line
        refine .inl ⟨hblank, fun e he htouch => (hcases e he htouch).resolve_left ?_⟩
        rintro rfl
        exact strip_ne_nil_of_mem_contentLines he hblank
      · exact .inr ⟨s.headingLine, h.headingLine_mem htail hblank, hline, rfl, rfl, hcases⟩

end Fits

/-! ## Sections that all fit -/

section Sections

variable {text : List Char} {profile : ChunkingProfile} {documentId : String} {overlap : Nat}

/-- A section that is not blank takes room in the text. -/
theorem SectionAt.start_lt_stop {s : Section} {front seg back : List (List Char)}
    (h : SectionAt text profile s front seg back) (hown : sectionText s ≠ []) :
    s.start < s.stop := by
  cases hseg : seg with
  | nil =>
    have hlines := h.of.lines
    rw [hseg, List.map_nil] at hlines
    rw [h.of.sectionText, hlines] at hown
    exact absurd rfl hown
  | cons raw raws =>
    have hmem : raw ∈ PyStr.splitlines text := by
      rw [h.raws, hseg]
      simp
    have hraw : raw ≠ [] := PyStr.ne_nil_of_mem_splitlines hmem
    have hpos := List.length_pos_iff.mpr hraw
    rw [h.of.stop, h.of.start, hseg, List.flatten_cons, List.length_append]
    omega

/-- A section with a line that is not blank is not blank. -/
theorem SectionAt.sectionText_ne_nil {s : Section} {front seg back : List (List Char)}
    (h : SectionAt text profile s front seg back) {e : TextSpan}
    (he : e ∈ lineEntriesFrom s.start seg) (hne : PyStr.strip e.text ≠ []) :
    sectionText s ≠ [] ∧ PyStr.strip e.text <:+: sectionText s := by
  have hmem : e.text ∈ s.lines := by
    rw [h.of.lines, ← map_text_lineEntriesFrom s.start seg]
    exact List.mem_map_of_mem he
  rw [h.of.sectionText]
  exact ⟨PyStr.strip_join_ne_nil hmem hne, PyStr.strip_infix_strip (PyStr.infix_join hmem) hne⟩

/-- A section that fits has one chunk, unless it is blank. -/
theorem Section.mem_parts_of_fits {s : Section} (hfits : s.Fits profile) {c : ChunkData} :
    c ∈ s.parts documentId profile overlap ↔ sectionText s ≠ [] ∧ c = s.whole documentId := by
  rw [Section.parts, if_pos hfits]
  split
  · rename_i hblank
    simp [hblank]
  · rename_i hown
    simp [hown]

/-- If all sections fit, the chunks point at them. -/
theorem pointsAtSections_of_fits (hnumbers : profile.CapturesNumbers)
    (hfits : ∀ s ∈ splitSections text profile, s.Fits profile) :
    PointsAtSections text profile
      ((splitSections text profile).flatMap (Section.parts documentId profile overlap)) where
  contained := by
    intro e he
    obtain ⟨s, hs, front, seg, back, h, hmem⟩ := exists_sectionAt_of_line hnumbers he
    obtain ⟨hown, hinfix⟩ := h.sectionText_ne_nil hmem (strip_ne_nil_of_mem_contentLines he)
    refine ⟨s.whole documentId, ?_, h.bounds hmem, ?_⟩
    · exact List.mem_flatMap.mpr ⟨s, hs, (Section.mem_parts_of_fits (hfits s hs)).mpr ⟨hown, rfl⟩⟩
    · have hown' : PyStr.strip (PyStr.join ['\n'] s.lines) ≠ [] := by rwa [← h.of.sectionText]
      have hsuffix := PyStr.suffix_strip_append (contextPrefix s) hown'
      rw [← h.of.sectionText] at hsuffix
      exact hinfix.trans hsuffix.isInfix
  increasing := by
    refine List.pairwise_flatMap.mpr ⟨fun s hs => ?_, ?_⟩
    · rw [Section.parts, if_pos (hfits s hs)]
      split <;> simp
    · refine (sections_of_text text hnumbers).pairwise.imp_of_mem ?_
      intro s t hs ht hst c hc d hd
      obtain ⟨hsown, rfl⟩ := (Section.mem_parts_of_fits (hfits s hs)).mp hc
      obtain ⟨htown, rfl⟩ := (Section.mem_parts_of_fits (hfits t ht)).mp hd
      obtain ⟨_, _, _, hsat⟩ := exists_sectionAt hnumbers hs
      obtain ⟨_, _, _, htat⟩ := exists_sectionAt hnumbers ht
      -- a section with text of its own is not empty, and the sections do not overlap
      have hslt := hsat.start_lt_stop hsown
      have htlt := htat.start_lt_stop htown
      change s.start < t.start ∧ s.stop < t.stop
      omega
  exact := by
    intro c hc
    obtain ⟨s, hs, hc⟩ := List.mem_flatMap.mp hc
    obtain ⟨hown, rfl⟩ := (Section.mem_parts_of_fits (hfits s hs)).mp hc
    obtain ⟨_, _, _, h⟩ := exists_sectionAt hnumbers hs
    exact h.isSection_whole documentId hown

end Sections

/-! ## A section that does not fit -/

/-- The first sentence of a text that is not blank is not blank. -/
theorem sentenceUnits_ne_nil {text : List Char} (hne : PyStr.strip text ≠ []) :
    sentenceUnits text ≠ [] := by
  have hfirst : ∃ s ∈ splitSentences text, PyStr.strip s ≠ [] := by
    rcases splitSentences_cases text with hone | ⟨s, gap, rest, h⟩
    · exact ⟨text, by rw [hone]; exact List.mem_singleton_self _, hne⟩
    · exact ⟨s, by rw [h.splitSentences]; exact List.mem_cons_self,
        strip_ne_nil_of_ends h.getLast⟩
  obtain ⟨s, hs, hsne⟩ := hfirst
  rw [← map_text_sentenceSpans] at hs
  obtain ⟨u, hu, rfl⟩ := List.mem_map.mp hs
  refine List.ne_nil_of_mem (a := u) (List.mem_filter.mpr ⟨hu, ?_⟩)
  rw [decide_eq_true_iff]
  exact hsne

/-- The first sentence of a text that is stripped starts at its start. -/
theorem exists_sentence_at_start {text : List Char} (hne : text ≠ [])
    (hstrip : PyStr.strip text = text) :
    ∃ u us, sentenceUnits text = u :: us ∧ u.start = 0 := by
  have hunits : sentenceUnits text ≠ [] := sentenceUnits_ne_nil (by rwa [hstrip])
  obtain ⟨u, us, hunits⟩ := List.exists_cons_of_ne_nil hunits
  refine ⟨u, us, hunits, ?_⟩
  have horder := sentenceUnits_inOrder text
  rw [hunits] at horder
  have hblank : BlankBetween text 0 u.start := horder.2.2.2.2.1
  by_contra hpos
  -- the text starts with more than whitespace
  obtain ⟨c, rest, rfl⟩ := List.exists_cons_of_ne_nil hne
  obtain ⟨n, hn⟩ := Nat.exists_eq_succ_of_ne_zero hpos
  have hc : PyStr.isSpace c = true := by
    apply hblank
    rw [hn]
    simp [PyStr.slice]
  rw [PyStr.isSpace_head_strip hstrip] at hc
  cases hc

/-- The first chunk of a text that is stripped starts at its start. -/
theorem exists_chunk_at_start {text : List Char} (hne : text ≠ [])
    (hstrip : PyStr.strip text = text) (documentId : String) (maxSize overlap : Nat) :
    ∃ sub ∈ chunkBySentences text documentId maxSize overlap, sub.startChar = 0 := by
  obtain ⟨u, us, hunits, hstart⟩ := exists_sentence_at_start hne hstrip
  obtain ⟨ws, hgroups, hcover⟩ :=
    (sentencePacker maxSize overlap).groups_cover (sentenceUnits text)
  have hpos : 0 < (sentenceUnits text).length := by
    rw [hunits]
    exact Nat.zero_lt_succ _
  obtain ⟨w, hw, hw0, -⟩ := hcover.covers 0 hpos
  obtain ⟨hlt, hle⟩ := hcover.bounds w hw
  obtain ⟨k, hk⟩ := List.getElem?_of_mem hw
  obtain ⟨first, last, hfirst, -, hspan, -⟩ := groupChunk_span [' '] documentId k hlt hle
  refine ⟨groupChunk [' '] documentId k (GreedyPacking.window (sentenceUnits text) w), ?_, ?_⟩
  · have hget : ((sentencePacker maxSize overlap).groups (sentenceUnits text))[k]? =
        some (GreedyPacking.window (sentenceUnits text) w) := by
      rw [hgroups, List.getElem?_map, hk]
      rfl
    have hlen := (List.getElem?_eq_some_iff.mp hget).1
    rcases chunkBySentences_eq text documentId maxSize overlap with ⟨-, hchunks⟩ |
      ⟨-, -, hchunks⟩
    · rw [hchunks]
      apply List.mem_of_getElem? (i := k)
      rw [List.getElem?_mapIdx, hget]
      rfl
    · rw [hchunks]
      apply List.mem_of_getElem? (i := k)
      rw [List.getElem?_mapIdx, List.getElem?_append_left hlen, hget]
      rfl
  · have hzero : w.1 = 0 := Nat.le_zero.mp hw0
    rw [hzero, hunits, List.getElem?_cons_zero, Option.some.injEq] at hfirst
    rw [hspan, ← hfirst, hstart]

/-- An empty text has no chunks. -/
theorem chunkBySentences_nil (documentId : String) (maxSize overlap : Nat) :
    chunkBySentences [] documentId maxSize overlap = [] := by
  simp [chunkBySentences, sentenceSpans, splitSentences, splitSentencesFrom, sentenceSpansFrom,
    PackState.packSentence, PackState.pack, PackState.finish, ChunkSink.emit, PyStr.strip,
    PyStr.lstrip]

section Oversize

variable {text : List Char} {profile : ChunkingProfile} {documentId : String} {overlap : Nat}
  {s : Section} {front seg back : List (List Char)}

/-- A heading that is not blank is the first line of its section. -/
theorem SectionAt.headed (h : SectionAt text profile s front seg back)
    (hne : PyStr.strip s.heading ≠ []) :
    s.headingLine ∈ contentLines text ∧ isSectionHeading profile s.headingLine = true ∧
      ∃ tail, lineEntriesFrom s.start seg = s.headingLine :: tail ∧
        ∀ e ∈ tail, isSectionHeading profile e = false := by
  rcases h.entries with ⟨hnil, -⟩ | ⟨hline, tail, htail, hbody⟩
  · rw [hnil] at hne
    exact absurd rfl hne
  · exact ⟨h.headingLine_mem htail hne, hline, tail, htail, hbody⟩

/-- A section with a heading and a body that is not blank, which another line follows, has
    two characters at least behind its heading. -/
theorem SectionAt.length_body (h : SectionAt text profile s front seg back)
    (hne : PyStr.strip s.heading ≠ []) (hbody : s.bodyText ≠ []) (hback : back ≠ []) :
    s.start + s.heading.length + 2 ≤ s.stop := by
  have hlevel : s.level ≠ 0 := by
    intro hlevel
    rcases h.of.kind with ⟨-, -, -, hheading⟩ | ⟨-, hpos, -⟩
    · rw [hheading] at hne
      exact hne rfl
    · omega
  have hlines := h.of.lines
  rw [Section.lines, if_neg hlevel] at hlines
  obtain ⟨raw, raws, rfl, hheading, hraws⟩ := List.map_eq_cons_iff.mp hlines.symm
  -- a line of the body that is not blank
  have hline : ∃ line ∈ s.bodyLines, ¬ PyStr.Blank line := by
    by_contra hnone
    push Not at hnone
    have hnewline : PyStr.Blank ['\n'] := by
      intro c hc
      rw [List.mem_singleton.mp hc]
      rfl
    exact hbody (PyStr.strip_eq_nil_iff.mpr (hnewline.join hnone))
  obtain ⟨line, hline, hblank⟩ := hline
  rw [← hraws] at hline
  obtain ⟨r, hr, rfl⟩ := List.mem_map.mp hline
  obtain ⟨a, b, rfl⟩ := List.mem_iff_append.mp hr
  -- there is a line behind it
  obtain ⟨next, more, hnext⟩ := List.exists_cons_of_ne_nil
    (List.append_ne_nil_of_right_ne_nil b hback)
  have hsplit : PyStr.splitlines text = (front ++ raw :: a) ++ r :: next :: more := by
    rw [h.raws, ← hnext]
    simp
  obtain ⟨body, c, rfl, hc⟩ := PyStr.isSpace_getLast_of_splitlines hsplit
  obtain ⟨newline, hnewline, -⟩ := PyStr.exists_append_rstripNewlines (body ++ [c])
  have hpos : 0 < body.length := by
    apply List.length_pos_iff.mpr
    rintro rfl
    apply hblank
    intro d hd
    have hmem : d ∈ [] ++ [c] := by
      rw [hnewline]
      exact List.mem_append_left _ hd
    rw [List.nil_append] at hmem
    rw [List.mem_singleton.mp hmem]
    exact hc
  have hraw := length_rstripNewlines_le raw
  rw [hheading] at hraw
  rw [h.of.stop, h.of.start]
  simp only [List.flatten_cons, List.flatten_append, List.length_append, List.length_singleton]
  omega

/-- A section that does not fit has no chunk if the chunks point at the sections and it has a
    heading: its first chunk would start behind the heading. -/
theorem PointsAtSections.parts_eq_nil (h : SectionAt text profile s front seg back)
    (hne : PyStr.strip s.heading ≠ []) (hover : ¬ s.Fits profile)
    (hexact : ∀ c ∈ s.parts documentId profile overlap, c.IsSection text profile) :
    s.parts documentId profile overlap = [] := by
  obtain ⟨-, -, tail, htail, hbody⟩ := h.headed hne
  have hheading : s.heading ≠ [] := by
    intro hnil
    rw [hnil] at hne
    exact hne rfl
  rw [Section.parts, if_neg hover] at hexact ⊢
  split at hexact
  · rename_i hblank
    rw [if_pos hblank]
  · rename_i hown
    rw [if_neg hown, List.map_eq_nil_iff]
    by_contra hsubs
    have htext : s.bodyText ≠ [] := by
      intro hnil
      rw [hnil, chunkBySentences_nil] at hsubs
      exact hsubs rfl
    obtain ⟨sub, hsub, hstart⟩ := exists_chunk_at_start htext (PyStr.strip_strip _) documentId
      (max 1 (profile.maxTokens * 4 - s.fullPrefix.length)) overlap
    rcases (hexact _ (List.mem_map_of_mem hsub)).heading with ⟨hnone, -⟩ |
      ⟨first, hfirst, hline, hspan, -⟩
    · exact hne hnone
    · have hoffset : s.bodyOffset = s.start + (s.heading.length + 1) := by
        rw [Section.bodyOffset, if_neg hheading]
      have hspan' : s.bodyOffset + sub.startChar = first.start := hspan
      rw [hstart, hoffset, Nat.add_zero] at hspan'
      have hroom := start_lt_stop_of_mem_contentLines hfirst
      rcases h.cases_line hfirst with hmem | hbefore | hbehind
      · rw [htail] at hmem
        rcases List.mem_cons.mp hmem with rfl | hmem
        · have hline' : s.headingLine.start = s.start := rfl
          omega
        · rw [hbody first hmem] at hline
          cases hline
      · omega
      · -- another section starts in the room behind the heading
        have hback : back ≠ [] := by
          rintro rfl
          have hlast := (contentLines_inOrder text).start_le first hfirst
          have hlen := PyStr.flatten_splitlines text
          rw [h.raws, List.append_nil, List.flatten_append] at hlen
          have hstop := h.of.stop
          rw [← List.length_append, hlen] at hstop
          omega
        have := h.length_body hne htext hback
        omega

end Oversize

/-! ## When the chunks point at the sections -/

section Main

variable {text : List Char} {profile : ChunkingProfile} {documentId : String} {overlap : Nat}

/-- Sections that are not blank start at different positions. -/
theorem sections_eq_of_start (hnumbers : profile.CapturesNumbers) {s t : Section}
    (hs : s ∈ splitSections text profile) (ht : t ∈ splitSections text profile)
    (hsown : sectionText s ≠ []) (htown : sectionText t ≠ []) (hstart : s.start = t.start) :
    s = t := by
  obtain ⟨_, _, _, hsat⟩ := exists_sectionAt hnumbers hs
  obtain ⟨_, _, _, htat⟩ := exists_sectionAt hnumbers ht
  have hslt := hsat.start_lt_stop hsown
  have htlt := htat.start_lt_stop htown
  have hsorted := List.pairwise_iff_getElem.mp (sections_of_text text hnumbers).pairwise
  obtain ⟨i, hi, rfl⟩ := List.getElem_of_mem hs
  obtain ⟨j, hj, rfl⟩ := List.getElem_of_mem ht
  rcases Nat.lt_trichotomy i j with hij | rfl | hij
  · have := hsorted i j hi hj hij
    omega
  · rfl
  · have := hsorted j i hj hi hij
    omega

/-- Every section with a heading fits if the chunks point at the sections: the line of its
    heading is held by the chunk that starts with it. -/
theorem PointsAtSections.fits (hnumbers : profile.CapturesNumbers)
    (h : PointsAtSections text profile
      ((splitSections text profile).flatMap (Section.parts documentId profile overlap)))
    {s : Section} (hs : s ∈ splitSections text profile) (hne : PyStr.strip s.heading ≠ []) :
    s.Fits profile := by
  obtain ⟨_, _, _, hat⟩ := exists_sectionAt hnumbers hs
  obtain ⟨hmem, hline, tail, htail, -⟩ := hat.headed hne
  obtain ⟨c, hc, hholds, -⟩ := h.contained s.headingLine hmem
  have hroom := start_lt_stop_of_mem_contentLines hmem
  have htouch : c.Touches s.headingLine :=
    ⟨Nat.lt_of_le_of_lt hholds.1 hroom, Nat.lt_of_lt_of_le hroom hholds.2⟩
  -- the chunk starts with the heading, and reports it
  obtain ⟨hstart, hheading⟩ : c.startChar = s.start ∧ c.sectionHeading = PyStr.strip s.heading := by
    rcases (h.exact c hc).heading with ⟨-, hnone⟩ | ⟨first, -, -, hspan, hreport, honly⟩
    · rw [hnone s.headingLine hmem htouch] at hline
      cases hline
    · rcases honly s.headingLine hmem htouch with heq | hnone
      · rw [← heq] at hspan hreport
        exact ⟨hspan, hreport⟩
      · rw [hnone] at hline
        cases hline
  have hown := (hat.sectionText_ne_nil (htail ▸ List.mem_cons_self) hne).1
  obtain ⟨t, ht, hct⟩ := List.mem_flatMap.mp hc
  obtain ⟨_, _, _, htat⟩ := exists_sectionAt hnumbers ht
  by_cases hfits : t.Fits profile
  · obtain ⟨htown, rfl⟩ := (Section.mem_parts_of_fits hfits).mp hct
    rwa [sections_eq_of_start hnumbers hs ht hown htown hstart.symm]
  · -- the chunk is one of a section that does not fit, and has no chunks
    have htheading : c.sectionHeading = PyStr.strip t.heading := by
      rw [Section.parts, if_neg hfits] at hct
      split at hct
      · cases hct
      · obtain ⟨sub, -, rfl⟩ := List.mem_map.mp hct
        rfl
    have htne : PyStr.strip t.heading ≠ [] := by
      rwa [← htheading, hheading]
    have hnil := PointsAtSections.parts_eq_nil htat htne hfits fun d hd =>
      h.exact d (List.mem_flatMap.mpr ⟨t, ht, hd⟩)
    rw [hnil] at hct
    cases hct

end Main

/-- The chunks of numbered sections lose no line and point at their sections if every section
    fits into the budget with the headings before it, and only if every section with a heading
    does. -/
theorem splitNumberedSections_points (text : List Char) (documentId : String)
    (profile : ChunkingProfile) (overlap : Nat) (hnumbers : profile.CapturesNumbers) :
    ((∀ s ∈ splitSections text profile, s.Fits profile) →
        PointsAtSections text profile (splitNumberedSections text documentId profile overlap)) ∧
      (PointsAtSections text profile (splitNumberedSections text documentId profile overlap) →
        ∀ s ∈ splitSections text profile, PyStr.strip s.heading ≠ [] → s.Fits profile) := by
  rw [← pointsAtSections_unnumbered_iff, map_unnumbered_splitNumberedSections]
  exact ⟨pointsAtSections_of_fits hnumbers, fun h s hs hne => h.fits hnumbers hs hne⟩

/-- Two sections with line ends of two characters, and a heading without a body. -/
theorem splitNumberedSections_points_nested :
    PointsAtSections "\r\n1 Scope\r\n1.1 Terms\r\nAll of them.\r\n".toList
        (twoLevelProfile true 200 (by decide))
        (splitNumberedSections "\r\n1 Scope\r\n1.1 Terms\r\nAll of them.\r\n".toList "doc"
          (twoLevelProfile true 200 (by decide)) 0) :=
  (splitNumberedSections_points "\r\n1 Scope\r\n1.1 Terms\r\nAll of them.\r\n".toList "doc"
    (twoLevelProfile true 200 (by decide)) 0 (twoLevelProfile_captures true 200 (by decide))).1
    (by decide)

/-- A heading that is longer than the budget, and has no body: no chunk is emitted for it. -/
theorem splitNumberedSections_loses_heading :
    ¬ ∀ (text : List Char) (documentId : String) (profile : ChunkingProfile) (overlap : Nat),
      profile.CapturesNumbers →
        PointsAtSections text profile
          (splitNumberedSections text documentId profile overlap) := by
  intro h
  have hpoints := h "1 Scope\n".toList "doc" (twoLevelProfile true 1 (by decide)) 0
    (twoLevelProfile_captures true 1 (by decide))
  have hnone : splitNumberedSections "1 Scope\n".toList "doc" (twoLevelProfile true 1 (by decide))
      0 = [] := by decide
  rw [hnone] at hpoints
  obtain ⟨c, hc, -⟩ := hpoints.contained
    { text := "1 Scope".toList, start := 0, stop := 7 } (by decide)
  cases hc

end Inherent
