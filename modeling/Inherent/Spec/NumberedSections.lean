import Inherent.ForStd.HeadingStack
import Inherent.Native.NumberedSections

/-!
# The ancestry of sections

The sections that `_split_sections` finds have the lines of the text in order, each from its
heading to before the next one.  The loop keeps the open headings in a dict by level; what it
records as the parents of a section are the nearest shallower heading before it, the nearest
one that is shallower than that, and so on.
-/

namespace Inherent

open HeadingStack (ancestors opened)

/-- Group 1 of every pattern takes part in each of its matches: it captures the number. -/
def ChunkingProfile.CapturesNumbers (profile : ChunkingProfile) : Prop :=
  ∀ pattern ∈ profile.headingPatterns, ∀ line, pattern.matchNumber line ≠ some none

/-- The heading that a line is, with its level. -/
def headingOf (profile : ChunkingProfile) (raw : List Char) : Option (Nat × List Char) :=
  (classifyHeading (PyStr.rstripNewlines raw) profile.headingPatterns).map fun h =>
    (h.level, PyStr.rstripNewlines raw)

/-- The headings among some lines, of whatever level. -/
def headingsOf (profile : ChunkingProfile) (raws : List (List Char)) : List (Nat × List Char) :=
  raws.filterMap (headingOf profile)

theorem headingsOf_append (profile : ChunkingProfile) (raws raws' : List (List Char)) :
    headingsOf profile (raws ++ raws') = headingsOf profile raws ++ headingsOf profile raws' :=
  List.filterMap_append

/-- The lines of a section; the preamble has no heading. -/
def Section.lines (s : Section) : List (List Char) :=
  if s.level = 0 then s.bodyLines else s.heading :: s.bodyLines

/-- A line at the end of the body. -/
theorem Section.lines_concat (s : Section) (line : List Char) (stop : Nat) :
    Section.lines { s with bodyLines := s.bodyLines ++ [line], stop := stop } =
      s.lines ++ [line] := by
  unfold Section.lines
  dsimp only
  split
  · rfl
  · rfl

/-- The chain of the most recent headings of strictly decreasing depth above `level`, the
    shallowest first. -/
def parentPath (profile : ChunkingProfile) (before : List (List Char)) (level : Nat) :
    List (List Char) :=
  ((ancestors (headingsOf profile before).reverse level).map Prod.snd).reverse

/-- `s` is the section of the lines `seg`, which come behind the lines `before`; `keep` says
    whether its parents are recorded. -/
structure SectionOf (profile : ChunkingProfile) (keep : Bool) (before seg : List (List Char))
    (s : Section) : Prop where
  lines : s.lines = seg.map PyStr.rstripNewlines
  start : s.start = before.flatten.length
  stop : s.stop = before.flatten.length + seg.flatten.length
  kind : (before = [] ∧ s.level = 0 ∧ s.number = none ∧ s.heading = []) ∨
    (classifyHeading s.heading profile.headingPatterns =
        some { number := s.number, level := s.level } ∧
      1 ≤ s.level ∧ s.level ≤ profile.splitAtLevel)
  body : ∀ line ∈ s.bodyLines, ∀ h ∈ classifyHeading line profile.headingPatterns,
    profile.splitAtLevel < h.level
  parents : s.parentHeadings =
    if keep then parentPath profile before s.level else []

/-- The sections partition the lines in order, and each is the section of its lines. -/
def SectionsOf (profile : ChunkingProfile) (keep : Bool) :
    List (List Char) → List (List Char) → List Section → Prop
  | _, raws, [] => raws = []
  | before, raws, s :: sections =>
    ∃ seg rest, raws = seg ++ rest ∧ SectionOf profile keep before seg s ∧
      SectionsOf profile keep (before ++ seg) rest sections

/-- One more section at the end. -/
theorem SectionsOf.concat {profile : ChunkingProfile} {keep : Bool}
    {before raws seg : List (List Char)} {sections : List Section} {s : Section}
    (h : SectionsOf profile keep before raws sections)
    (hs : SectionOf profile keep (before ++ raws) seg s) :
    SectionsOf profile keep before (raws ++ seg) (sections ++ [s]) := by
  induction sections generalizing before raws with
  | nil =>
    rw [SectionsOf] at h
    rw [h, List.append_nil] at hs
    exact ⟨seg, [], by simp [h], hs, rfl⟩
  | cons t sections ih =>
    obtain ⟨seg', rest, rfl, ht, hrest⟩ := h
    refine ⟨seg', rest ++ seg, by rw [List.append_assoc], ht, ih hrest ?_⟩
    rwa [List.append_assoc]

/-! ## The loop -/

/-- The level of a heading is that of a pattern. -/
theorem level_classifyHeading {line : List Char} {patterns : List HeadingPattern} {h : Heading}
    (hline : classifyHeading line patterns = some h) : 1 ≤ h.level := by
  obtain ⟨pattern, -, hp⟩ := List.exists_of_findSome?_eq_some hline
  obtain ⟨number, -, rfl⟩ := Option.map_eq_some_iff.mp hp
  exact pattern.level_ge

/-- A heading has a number if group 1 of every pattern captures it. -/
theorem number_classifyHeading {profile : ChunkingProfile} (hnumbers : profile.CapturesNumbers)
    {line : List Char} {h : Heading}
    (hline : classifyHeading line profile.headingPatterns = some h) : h.number.isSome = true := by
  obtain ⟨pattern, hmem, hp⟩ := List.exists_of_findSome?_eq_some hline
  obtain ⟨number, hnumber, rfl⟩ := Option.map_eq_some_iff.mp hp
  cases number with
  | some n => rfl
  | none => exact absurd hnumber (hnumbers pattern hmem _)

/-- The loop has the sections of `prev`, and the current one is that of `seg`. -/
structure SectionLoop.Splits (profile : ChunkingProfile) (s : SectionLoop)
    (prev seg : List (List Char)) : Prop where
  sections : SectionsOf profile profile.keepParentHeading [] prev s.sections
  current : SectionOf profile profile.keepParentHeading prev seg { s.current with stop := s.cursor }
  openHeadings : s.openHeadings.reverse = opened
    ((headingsOf profile (prev ++ seg)).filter fun h => h.1 ≤ profile.splitAtLevel).reverse

theorem SectionLoop.splits_init (profile : ChunkingProfile) :
    SectionLoop.Splits profile {} [] [] where
  sections := rfl
  current := by
    refine ⟨rfl, rfl, rfl, .inl ⟨rfl, rfl, rfl, rfl⟩, by simp, ?_⟩
    split <;> rfl
  openHeadings := rfl

section Loop

variable {profile : ChunkingProfile} {s : SectionLoop} {prev seg : List (List Char)}

/-- The cursor is behind the lines. -/
theorem SectionLoop.Splits.cursor (h : s.Splits profile prev seg) :
    s.cursor = (prev ++ seg).flatten.length := by
  rw [List.flatten_append, List.length_append]
  exact h.current.stop

/-- A section that is dropped has no lines. -/
theorem SectionLoop.Splits.flush (hnumbers : profile.CapturesNumbers)
    (h : s.Splits profile prev seg) :
    SectionsOf profile profile.keepParentHeading [] (prev ++ seg) (s.flush s.cursor) := by
  rw [SectionLoop.flush]
  dsimp only
  split
  · exact h.sections.concat h.current
  · rename_i hdrop
    simp only [not_or, Bool.not_eq_true, Option.isSome_eq_false_iff, Option.isNone_iff_eq_none,
      not_not] at hdrop
    have hseg : seg = [] := by
      rcases h.current.kind with ⟨-, hlevel, -⟩ | ⟨hheading, -⟩
      · have hlines := h.current.lines
        rw [Section.lines, if_pos hlevel] at hlines
        exact List.map_eq_nil_iff.mp (hlines.symm.trans hdrop.2)
      · have := number_classifyHeading hnumbers hheading
        rw [hdrop.1] at this
        cases this
    rw [hseg, List.append_nil]
    exact h.sections

/-- A line that is not the heading of a section goes to the current one. -/
theorem SectionLoop.Splits.body (h : s.Splits profile prev seg) {raw : List Char}
    (hraw : ∀ heading ∈ classifyHeading (PyStr.rstripNewlines raw) profile.headingPatterns,
      profile.splitAtLevel < heading.level) :
    (s.body raw).Splits profile prev (seg ++ [raw]) where
  sections := h.sections
  current := by
    refine ⟨?_, h.current.start, ?_, h.current.kind, ?_, h.current.parents⟩
    · rw [List.map_append, ← h.current.lines]
      exact Section.lines_concat { s.current with stop := s.cursor } (PyStr.rstripNewlines raw)
        (s.body raw).cursor
    · have hstop := h.current.stop
      simp only [SectionLoop.body] at hstop ⊢
      rw [hstop]
      simp only [List.flatten_append, List.flatten_singleton, List.length_append]
      omega
    · intro line hline
      rcases List.mem_append.mp hline with hline | hline
      · exact h.current.body line hline
      · rw [List.mem_singleton.mp hline]
        exact hraw
  openHeadings := by
    -- a line of the body is no heading that would split
    have hnone : (headingsOf profile [raw]).filter (fun h => h.1 ≤ profile.splitAtLevel) = [] := by
      rw [List.filter_eq_nil_iff]
      intro g hg
      simp only [headingsOf, List.mem_filterMap, List.mem_singleton, exists_eq_left, headingOf,
        Option.map_eq_some_iff] at hg
      obtain ⟨heading, hheading, rfl⟩ := hg
      have := hraw heading hheading
      simp only [decide_eq_true_eq]
      omega
    have hopen := h.openHeadings
    rw [← List.append_assoc, headingsOf_append, List.filter_append, hnone, List.append_nil]
    exact hopen

/-- What is open above the level of a section are its ancestors, the shallowest first. -/
theorem SectionLoop.Splits.filter_openHeadings (h : s.Splits profile prev seg) {level : Nat}
    (hlevel : level ≤ profile.splitAtLevel) :
    s.openHeadings.filter (fun g => g.1 < level) =
      (ancestors (headingsOf profile (prev ++ seg)).reverse level).reverse := by
  have hopen := congrArg List.reverse h.openHeadings
  rw [List.reverse_reverse] at hopen
  rw [hopen, List.filter_reverse, HeadingStack.filter_opened, ← List.filter_reverse,
    HeadingStack.ancestors_filter hlevel]

/-- The parents of a section: the dict is sorted by the level already. -/
theorem SectionLoop.Splits.parents (h : s.Splits profile prev seg) {level : Nat}
    (hlevel : level ≤ profile.splitAtLevel) :
    ((s.openHeadings.filter fun g => g.1 < level).insertionSort fun g h => g.1 ≤ h.1).map Prod.snd =
      parentPath profile (prev ++ seg) level := by
  have hsorted : (ancestors (headingsOf profile (prev ++ seg)).reverse level).reverse.Pairwise
      fun g h => g.1 ≤ h.1 := by
    rw [List.pairwise_reverse]
    exact (HeadingStack.pairwise_ancestors _ level).imp fun hlt => Nat.le_of_lt hlt
  rw [h.filter_openHeadings hlevel, hsorted.insertionSort_eq, List.map_reverse, parentPath]

/-- A heading opens a section under the open headings that are shallower. -/
theorem SectionLoop.Splits.open (hnumbers : profile.CapturesNumbers)
    (h : s.Splits profile prev seg) {raw : List Char} {heading : Heading}
    (hraw : classifyHeading (PyStr.rstripNewlines raw) profile.headingPatterns = some heading)
    (hlevel : heading.level ≤ profile.splitAtLevel) :
    (s.open profile raw heading).Splits profile (prev ++ seg) [raw] where
  sections := h.flush hnumbers
  current := by
    have hpos := level_classifyHeading hraw
    refine ⟨?_, h.cursor, ?_, .inr ⟨hraw, hpos, hlevel⟩, by simp [SectionLoop.open], ?_⟩
    · simp [Section.lines, SectionLoop.open, Nat.ne_of_gt hpos]
    · simp only [SectionLoop.open, h.cursor, List.flatten_singleton]
    · simp only [SectionLoop.open, h.parents hlevel]
  openHeadings := by
    have hone : headingsOf profile [raw] = [(heading.level, PyStr.rstripNewlines raw)] := by
      simp [headingsOf, headingOf, hraw]
    simp only [SectionLoop.open]
    rw [h.filter_openHeadings hlevel, headingsOf_append _ (prev ++ seg), hone, List.filter_append,
      List.reverse_append, List.reverse_append, List.reverse_reverse,
      List.filter_cons_of_pos (by simpa using hlevel), List.filter_nil, List.reverse_singleton,
      List.singleton_append, List.singleton_append, opened, HeadingStack.filter_opened,
      ← List.filter_reverse, HeadingStack.ancestors_filter hlevel]

/-- One line keeps the sections of the lines so far. -/
theorem SectionLoop.Splits.line (hnumbers : profile.CapturesNumbers)
    (h : s.Splits profile prev seg) (raw : List Char) :
    ∃ prev' seg', prev' ++ seg' = prev ++ seg ++ [raw] ∧
      (s.line profile raw).Splits profile prev' seg' := by
  rw [SectionLoop.line]
  cases hraw : classifyHeading (PyStr.rstripNewlines raw) profile.headingPatterns with
  | none =>
    exact ⟨prev, seg ++ [raw], by rw [List.append_assoc], h.body (by simp [hraw])⟩
  | some heading =>
    by_cases hdeep : profile.splitAtLevel < heading.level
    · simp only [if_pos hdeep]
      exact ⟨prev, seg ++ [raw], by rw [List.append_assoc], h.body (by simpa [hraw] using hdeep)⟩
    · simp only [if_neg hdeep]
      exact ⟨prev ++ seg, [raw], rfl, h.open hnumbers hraw (Nat.le_of_not_lt hdeep)⟩

/-- The loop splits all the lines. -/
theorem SectionLoop.splits_foldl (hnumbers : profile.CapturesNumbers) (raws : List (List Char)) :
    ∃ prev seg, prev ++ seg = raws ∧
      (raws.foldl (SectionLoop.line profile) {}).Splits profile prev seg := by
  induction raws using List.reverseRecOn with
  | nil => exact ⟨[], [], rfl, SectionLoop.splits_init profile⟩
  | append_singleton raws raw ih =>
    obtain ⟨prev, seg, rfl, h⟩ := ih
    rw [List.foldl_concat]
    exact h.line hnumbers raw

end Loop

/-- The sections partition the lines of the text in order, and the parents that are recorded
    for a section are the most recent headings of strictly decreasing depth before it, if the
    profile keeps them. -/
theorem splitSections_sectionsOf (text : List Char) (profile : ChunkingProfile)
    (hnumbers : profile.CapturesNumbers) :
    SectionsOf profile profile.keepParentHeading [] (PyStr.splitlines text)
      (splitSections text profile) := by
  obtain ⟨prev, seg, hraws, h⟩ := SectionLoop.splits_foldl hnumbers (PyStr.splitlines text)
  have hsections := h.flush hnumbers
  rw [hraws] at hsections
  exact hsections

/-! ## A profile with two levels -/

/-- What the regular expression `([0-9]) ` matches. -/
def matchDigit : List Char → Option (Option (List Char))
  | d :: ' ' :: _ => if d.isDigit then some (some [d]) else none
  | _ => none

/-- What the regular expression `([0-9]\.[0-9]) ` matches. -/
def matchDigits : List Char → Option (Option (List Char))
  | d :: '.' :: e :: ' ' :: _ => if d.isDigit ∧ e.isDigit then some (some [d, '.', e]) else none
  | _ => none

/-- A profile that splits at headings such as `1 Scope` and `1.1 Terms`. -/
def twoLevelProfile (keepParentHeading : Bool) (maxTokens : Nat) (hmax : 0 < maxTokens) :
    ChunkingProfile where
  splitAtLevel := 2
  keepParentHeading := keepParentHeading
  maxTokens := maxTokens
  headingPatterns :=
    [{ level := 1, matchNumber := matchDigit, level_ge := by decide, level_le := by decide },
     { level := 2, matchNumber := matchDigits, level_ge := by decide, level_le := by decide }]
  splitAtLevel_ge := by decide
  splitAtLevel_le := by decide
  maxTokens_pos := hmax
  headingPatterns_ne_nil := by decide

theorem twoLevelProfile_captures (keepParentHeading : Bool) (maxTokens : Nat)
    (hmax : 0 < maxTokens) :
    (twoLevelProfile keepParentHeading maxTokens hmax).CapturesNumbers := by
  intro pattern hmem line
  simp only [twoLevelProfile, List.mem_cons, List.not_mem_nil, or_false] at hmem
  rcases hmem with rfl | rfl
  · simp only [matchDigit]
    split
    · split <;> simp
    · simp
  · simp only [matchDigits]
    split
    · split <;> simp
    · simp

/-- A section under another one. -/
theorem splitSections_sectionsOf_nested :
    (twoLevelProfile true 200 (by decide)).CapturesNumbers ∧
      SectionsOf (twoLevelProfile true 200 (by decide)) true []
        (PyStr.splitlines "1 Scope\n1.1 Terms\nAll of them.\n2 End\n".toList)
        (splitSections "1 Scope\n1.1 Terms\nAll of them.\n2 End\n".toList
          (twoLevelProfile true 200 (by decide))) :=
  ⟨twoLevelProfile_captures true 200 (by decide),
    splitSections_sectionsOf "1 Scope\n1.1 Terms\nAll of them.\n2 End\n".toList
      (twoLevelProfile true 200 (by decide)) (twoLevelProfile_captures true 200 (by decide))⟩

/-- A profile that does not keep the parent headings records none. -/
theorem splitSections_without_parents :
    ¬ ∀ (text : List Char) (profile : ChunkingProfile), profile.CapturesNumbers →
      SectionsOf profile true [] (PyStr.splitlines text) (splitSections text profile) := by
  intro h
  have hsections := h "1 A\n1.1 B\n".toList (twoLevelProfile false 200 (by decide))
    (twoLevelProfile_captures false 200 (by decide))
  have hsplit : splitSections "1 A\n1.1 B\n".toList (twoLevelProfile false 200 (by decide)) =
      [{ number := some "1".toList, level := 1, heading := "1 A".toList, start := 0, stop := 4 },
       { number := some "1.1".toList, level := 2, heading := "1.1 B".toList, start := 4,
         stop := 10 }] := by
    decide
  have hraws : PyStr.splitlines "1 A\n1.1 B\n".toList = ["1 A\n".toList, "1.1 B\n".toList] := by
    decide
  rw [hsplit, hraws] at hsections
  obtain ⟨seg, rest, hseg, hfirst, _, _, _, hsecond, -⟩ := hsections
  have hlen : seg.length = 1 := by
    have := congrArg List.length hfirst.lines
    simpa [Section.lines] using this.symm
  obtain ⟨raw, rfl⟩ := List.length_eq_one_iff.mp hlen
  simp only [List.singleton_append, List.cons.injEq] at hseg
  have hparents := hsecond.parents
  rw [← hseg.1] at hparents
  exact absurd hparents (by decide)

end Inherent
