import Inherent.Native.OdtText

/-!
# What the text of an ODT document shows

The fragments of `_odf_extract_text` are those of the visible pieces of the tree, one piece
after the other in document order.  What is inside tracked changes and annotations decides
nothing about them.
-/

namespace Inherent

open Element (Place Mark visible)

/-- The elements that stand for whitespace. -/
def odfWhitespace (tag : String) : Bool := tag == odfSpaceTag || tag == odfTabTag

/-- What is shown of a visible piece: text and tails are kept, a `text:s` or `text:tab` shows
    its whitespace and nothing of its content, and a paragraph or heading ends with a line
    break. -/
def odfShown : Place → Except ExtractError (List (List Char))
  | (around, .start tag attrib) =>
    if around.tail.any odfWhitespace then .ok []
    else if tag = odfSpaceTag then (odfSpaces attrib).map fun blanks => [blanks]
    else if tag = odfTabTag then .ok [['\t']]
    else .ok []
  | (around, .chars text) => if around.any odfWhitespace then .ok [] else .ok (odfFragment text)
  | (around, .stop tag) =>
    if around.any odfWhitespace then .ok []
    else .ok (if odfParagraph tag then [['\n']] else [])

/-- What is shown of pieces, one after the other. -/
def odfShowAll (places : List Place) : Except ExtractError (List (List Char)) :=
  (places.mapM odfShown).map List.flatten

@[simp] theorem odfShowAll_nil : odfShowAll [] = .ok [] := rfl

theorem odfShowAll_cons (p : Place) (places : List Place) :
    odfShowAll (p :: places) =
      odfShown p >>= fun own => odfShowAll places >>= fun rest => .ok (own ++ rest) := by
  simp only [odfShowAll, List.mapM_cons]
  cases odfShown p with
  | error e => rfl
  | ok own => cases places.mapM odfShown <;> rfl

theorem odfShowAll_append (xs ys : List Place) :
    odfShowAll (xs ++ ys) =
      odfShowAll xs >>= fun own => odfShowAll ys >>= fun rest => .ok (own ++ rest) := by
  induction xs with
  | nil => cases h : odfShowAll ys <;> simp [h, bind, Except.bind]
  | cons p xs ih =>
    rw [List.cons_append, odfShowAll_cons, odfShowAll_cons, ih]
    cases odfShown p with
    | error e => rfl
    | ok own =>
      cases odfShowAll xs with
      | error e => rfl
      | ok mid => cases odfShowAll ys <;> simp [bind, Except.bind]

theorem odfShowAll_eq_nil {places : List Place} (h : ∀ p ∈ places, odfShown p = .ok []) :
    odfShowAll places = .ok [] := by
  induction places with
  | nil => rfl
  | cons p places ih =>
    rw [odfShowAll_cons, h p List.mem_cons_self, ih fun q hq => h q (List.mem_cons_of_mem _ hq)]
    rfl

/-! ## Inside a whitespace element -/

/-- Nothing is shown of a piece that stands under a whitespace element. -/
theorem odfShown_of_covered {p : Place} (h : p.1.tail.any odfWhitespace = true) :
    odfShown p = .ok [] := by
  obtain ⟨around, mark⟩ := p
  have hany : around.any odfWhitespace = true := by
    obtain ⟨tag, htag, hblank⟩ := List.any_eq_true.mp h
    exact List.any_eq_true.mpr ⟨tag, List.mem_of_mem_tail htag, hblank⟩
  -- text and ends look at all the tags, a start only at those around it
  cases mark with
  | start tag attrib => exact if_pos h
  | chars text => exact if_pos hany
  | stop tag => exact if_pos hany

theorem odfShown_of_mem_marks {e : Element} {around : List String}
    (h : around.any odfWhitespace = true) {p : Place} (hp : p ∈ e.marks around) :
    odfShown p = .ok [] := by
  apply odfShown_of_covered
  obtain ⟨before, hbefore⟩ := Element.suffix_of_mem_marks hp
  obtain ⟨tag, htag, hblank⟩ := List.any_eq_true.mp h
  refine List.any_eq_true.mpr ⟨tag, ?_, hblank⟩
  rw [← hbefore]
  cases before with
  | nil => exact htag
  | cons b before => simp [htag]

theorem odfShown_of_mem_childMarks {children : List Element} {around : List String}
    (h : around.any odfWhitespace = true) {p : Place}
    (hp : p ∈ Element.childMarks around children) : odfShown p = .ok [] := by
  induction children with
  | nil => exact absurd hp List.not_mem_nil
  | cons c children ih =>
    simp only [Element.childMarks, List.mem_append, List.mem_cons] at hp
    rcases hp with hp | rfl | hp
    · exact odfShown_of_mem_marks h hp
    · exact if_pos h
    · exact ih hp

/-! ## The walk -/

/-- The visible pieces of an element. -/
def odfVisible (around : List String) (e : Element) : List Place :=
  (e.marks around).filter (visible odfExcluded)

/-- The visible pieces of the children. -/
def odfVisibleChildren (around : List String) (children : List Element) : List Place :=
  (Element.childMarks around children).filter (visible odfExcluded)

/-- The pieces of a visible element: the two at its start, those of its children, and its end. -/
theorem odfVisible_mk {tag : String} {around : List String}
    (hvisible : (tag :: around).all (fun t => !odfExcluded t) = true)
    (attrib : List (String × List Char)) (text : List Char) (children : List Element)
    (tail : List Char) :
    odfVisible around (.mk tag attrib text children tail) =
      (tag :: around, .start tag attrib) :: (tag :: around, .chars text) ::
        (odfVisibleChildren (tag :: around) children ++ [(tag :: around, .stop tag)]) := by
  have hpos : ∀ mark : Mark, visible odfExcluded (tag :: around, mark) = true := fun _ => hvisible
  simp [odfVisible, odfVisibleChildren, Element.marks, hpos]

theorem odfVisibleChildren_cons {around : List String}
    (hvisible : around.all (fun t => !odfExcluded t) = true) (c : Element)
    (children : List Element) :
    odfVisibleChildren around (c :: children) =
      odfVisible around c ++ (around, .chars c.tail) :: odfVisibleChildren around children := by
  have hpos : ∀ mark : Mark, visible odfExcluded (around, mark) = true := fun _ => hvisible
  simp [odfVisible, odfVisibleChildren, Element.childMarks, hpos]

/-- A whitespace element shows its first piece. -/
theorem odfShowAll_whitespace {tag : String} (htag : odfWhitespace tag = true)
    {around : List String} (hvisible : (tag :: around).all (fun t => !odfExcluded t) = true)
    (attrib : List (String × List Char)) (text : List Char) (children : List Element)
    (tail : List Char) :
    odfShowAll (odfVisible around (.mk tag attrib text children tail)) =
      odfShown (tag :: around, .start tag attrib) := by
  have hany : (tag :: around).any odfWhitespace = true :=
    List.any_eq_true.mpr ⟨tag, List.mem_cons_self, htag⟩
  -- all pieces behind the first one stand in the element, and show nothing
  rw [odfVisible_mk hvisible, odfShowAll_cons, odfShowAll_eq_nil]
  · cases odfShown (tag :: around, .start tag attrib) <;> simp [bind, Except.bind]
  · intro p hp
    simp only [odfVisibleChildren, List.mem_filter, List.mem_cons, List.mem_append,
      List.not_mem_nil, or_false] at hp
    rcases hp with rfl | hp | rfl
    · exact if_pos hany
    · exact odfShown_of_mem_childMarks hany hp.1
    · exact if_pos hany

/-- The walk over an element outside hidden and whitespace elements shows its visible pieces,
    one after the other. -/
theorem odfExtractText_eq_showAll (e : Element) {around : List String}
    (hvisible : around.all (fun t => !odfExcluded t) = true)
    (hblank : around.any odfWhitespace = false) :
    odfExtractText e = odfShowAll (odfVisible around e) := by
  induction e using Element.induction generalizing around with
  | h tag attrib text children tail ih =>
    -- the cases are those of the walk: hidden, text:s, text:tab, any other element
    rw [odfExtractText]
    split
    · next hexcluded =>
      rw [odfVisible, Element.filter_visible_of_hidden odfExcluded
        ⟨tag, List.mem_cons_self, hexcluded⟩]
      rfl
    · next hexcluded =>
      have hvisible' : (tag :: around).all (fun t => !odfExcluded t) = true := by
        simp only [List.all_cons, hvisible, Bool.and_true]
        simpa using hexcluded
      split
      · next hspace =>
        have hstart : odfShown (tag :: around, .start tag attrib) =
            (odfSpaces attrib).map fun blanks => [blanks] := by
          simp [odfShown, hblank, hspace]
        rw [odfShowAll_whitespace (by simp [odfWhitespace, hspace]) hvisible', hstart]
      · split
        · next hspace htab =>
          have hstart : odfShown (tag :: around, .start tag attrib) = .ok [['\t']] := by
            have hne : ¬ odfTabTag = odfSpaceTag := htab ▸ hspace
            simp [odfShown, hblank, htab, hne]
          rw [odfShowAll_whitespace (by simp [odfWhitespace, htab]) hvisible', hstart]
        · next hspace htab =>
          have hblank' : (tag :: around).any odfWhitespace = false := by
            simp [odfWhitespace, hspace, htab, hblank]
          have hchars : ∀ t : List Char,
              odfShown (tag :: around, .chars t) = .ok (odfFragment t) := by
            intro t
            simp only [odfShown, hblank']
            rfl
          -- the children, each with its tail
          have hchildren : ∀ cs : List Element, (∀ c ∈ cs, c ∈ children) →
              odfExtractChildren cs = odfShowAll (odfVisibleChildren (tag :: around) cs) := by
            intro cs
            induction cs with
            | nil => intro _; rw [odfExtractChildren]; rfl
            | cons c cs ihcs =>
              intro hcs
              rw [odfExtractChildren, ih c (hcs c List.mem_cons_self) hvisible' hblank',
                ihcs fun d hd => hcs d (List.mem_cons_of_mem _ hd),
                odfVisibleChildren_cons hvisible', odfShowAll_append, odfShowAll_cons, hchars]
              cases odfShowAll (odfVisible (tag :: around) c) with
              | error e => rfl
              | ok own =>
                cases odfShowAll (odfVisibleChildren (tag :: around) cs) <;>
                  simp [bind, Except.bind]
          have hstart : odfShown (tag :: around, .start tag attrib) = .ok [] := by
            simp [odfShown, hblank, hspace, htab]
          have hstop : odfShown (tag :: around, .stop tag) =
              .ok (if odfParagraph tag then [['\n']] else []) := by
            simp only [odfShown, hblank']
            rfl
          rw [hchildren children fun _ h => h, odfVisible_mk hvisible', odfShowAll_cons,
            odfShowAll_cons, odfShowAll_append, odfShowAll_cons, hstart, hchars, hstop]
          cases odfShowAll (odfVisibleChildren (tag :: around) children) <;>
            simp [bind, Except.bind]

/-! ## What is shown of the pieces -/

/-- The fragments are what the pieces show, one piece after the other. -/
theorem odfShowAll_ok {places : List Place} {fragments : List (List Char)} :
    odfShowAll places = .ok fragments ↔
      ∃ shown, List.Forall₂ (fun p fs => odfShown p = .ok fs) places shown ∧
        shown.flatten = fragments := by
  induction places generalizing fragments with
  | nil =>
    simp only [odfShowAll_nil, Except.ok.injEq, List.forall₂_nil_left_iff]
    constructor
    · rintro rfl
      exact ⟨[], rfl, rfl⟩
    · rintro ⟨shown, rfl, rfl⟩
      rfl
  | cons p places ih =>
    rw [odfShowAll_cons]
    cases hp : odfShown p with
    | error e => simp [bind, Except.bind, List.forall₂_cons_left_iff, hp]
    | ok own =>
      cases hrest : odfShowAll places with
      | error e =>
        -- an error further on leaves no list of all the parts
        have hnone : ∀ shown, ¬ List.Forall₂ (fun p fs => odfShown p = .ok fs) places shown := by
          intro shown hshown
          have hok : odfShowAll places = .ok shown.flatten := ih.mpr ⟨shown, hshown, rfl⟩
          rw [hrest] at hok
          cases hok
        simp [bind, Except.bind, List.forall₂_cons_left_iff, hnone]
      | ok rest =>
        obtain ⟨shown, hshown, hflat⟩ := ih.mp hrest
        simp only [bind, Except.bind, Except.ok.injEq]
        constructor
        · rintro rfl
          exact ⟨own :: shown, .cons hp hshown, by rw [List.flatten_cons, hflat]⟩
        · rintro ⟨shown', hshown', rfl⟩
          cases hshown' with
          | cons hp' hrest' =>
            rw [hp] at hp'
            cases hp'
            have := ih.mpr ⟨_, hrest', rfl⟩
            rw [hrest] at this
            cases this
            rfl

/-- The walk raises what the first piece raises that raises something. -/
theorem odfShowAll_eq_error_iff {places : List Place} {e : ExtractError} :
    odfShowAll places = .error e ↔ ∃ before p after, places = before ++ p :: after ∧
      (∀ q ∈ before, ∃ fs, odfShown q = .ok fs) ∧ odfShown p = .error e := by
  induction places with
  | nil =>
    constructor
    · intro h
      cases h
    · rintro ⟨before, p, after, h, -⟩
      simp at h
  | cons p places ih =>
    rw [odfShowAll_cons]
    cases hp : odfShown p with
    | error e' =>
      constructor
      · intro h
        cases h
        exact ⟨[], p, places, rfl, by simp, hp⟩
      · rintro ⟨before, q, after, hcut, hbefore, hq⟩
        cases before with
        | nil =>
          cases hcut
          rw [hp] at hq
          cases hq
          rfl
        | cons first before =>
          cases hcut
          obtain ⟨fs, hfs⟩ := hbefore p List.mem_cons_self
          rw [hp] at hfs
          cases hfs
    | ok own =>
      -- a piece that shows something is before the one that raises
      have hrest : (Except.ok own >>= fun own => odfShowAll places >>= fun rest =>
          Except.ok (own ++ rest)) = .error e ↔ odfShowAll places = .error e := by
        cases odfShowAll places <;> simp [bind, Except.bind]
      rw [hrest, ih]
      constructor
      · rintro ⟨before, q, after, rfl, hbefore, hq⟩
        exact ⟨p :: before, q, after, rfl, List.forall_mem_cons.mpr ⟨⟨own, hp⟩, hbefore⟩, hq⟩
      · rintro ⟨before, q, after, hcut, hbefore, hq⟩
        cases before with
        | nil =>
          cases hcut
          rw [hp] at hq
          cases hq
        | cons first before =>
          cases hcut
          exact ⟨before, q, after, rfl, fun r hr => hbefore r (List.mem_cons_of_mem _ hr), hq⟩

/-- A piece raises the error of a count, if it begins a `text:s` outside whitespace elements. -/
theorem odfShown_eq_error_iff {p : Place} {e : ExtractError} :
    odfShown p = .error e ↔ ∃ around attrib, p = (around, .start odfSpaceTag attrib) ∧
      around.tail.any odfWhitespace = false ∧ odfSpaces attrib = .error e := by
  constructor
  · intro h
    obtain ⟨around, mark⟩ := p
    -- only the count of blanks can be no number
    cases mark with
    | start tag attrib =>
      simp only [odfShown] at h
      split at h
      · cases h
      · next hblank =>
        split at h
        · next hspace =>
          subst hspace
          refine ⟨around, attrib, rfl, by simpa using hblank, ?_⟩
          cases hs : odfSpaces attrib with
          | error e' =>
            rw [hs] at h
            cases h
            rfl
          | ok blanks =>
            rw [hs] at h
            cases h
        · split at h <;> cases h
    | chars text =>
      simp only [odfShown] at h
      split at h <;> cases h
    | stop tag =>
      simp only [odfShown] at h
      split at h <;> cases h
  · rintro ⟨around, attrib, rfl, hblank, hspaces⟩
    simp only [odfShown, hblank, hspaces]
    rfl

/-! ## The extraction -/

/-- What the extraction of a body keeps and hides. -/
structure OdfExtraction (body : Element) : Prop where
  /-- What is inside tracked changes and annotations decides nothing. -/
  blind : ∀ other : Element, other.blank odfExcluded = body.blank odfExcluded →
    odfExtractText other = odfExtractText body ∧ odtBodyText other = odtBodyText body
  /-- The fragments are what the visible pieces show, each once and in document order. -/
  ordered : ∀ fragments, odfExtractText body = .ok fragments ↔
    ∃ shown, List.Forall₂ (fun p fs => odfShown p = .ok fs) (odfVisible [] body) shown ∧
      shown.flatten = fragments
  /-- It raises the error of the first visible `text:s` whose count is no number, if there is one
      outside whitespace elements. -/
  raises : ∀ e, odfExtractText body = .error e ↔
    ∃ before around attrib after,
      odfVisible [] body = before ++ (around, Mark.start odfSpaceTag attrib) :: after ∧
        (∀ p ∈ before, ∃ fs, odfShown p = .ok fs) ∧
        around.tail.any odfWhitespace = false ∧ odfSpaces attrib = .error e

theorem odfExtractText_extraction (body : Element) : OdfExtraction body := by
  have hwalk : ∀ e : Element, odfExtractText e = odfShowAll (odfVisible [] e) := fun e =>
    odfExtractText_eq_showAll e rfl rfl
  constructor
  · -- blanked trees have the same visible pieces
    intro other hother
    have hsame : odfExtractText other = odfExtractText body := by
      rw [hwalk, hwalk, odfVisible, odfVisible, ← Element.filter_visible_blank odfExcluded other,
        ← Element.filter_visible_blank odfExcluded body, hother]
    exact ⟨hsame, by rw [odtBodyText, odtBodyText, hsame]⟩
  · intro fragments
    rw [hwalk]
    exact odfShowAll_ok
  · intro e
    rw [hwalk, odfShowAll_eq_error_iff]
    constructor
    · rintro ⟨before, p, after, hcut, hbefore, hp⟩
      obtain ⟨around, attrib, rfl, hblank, hspaces⟩ := odfShown_eq_error_iff.mp hp
      exact ⟨before, around, attrib, after, hcut, hbefore, hblank, hspaces⟩
    · rintro ⟨before, around, attrib, after, hcut, hbefore, hblank, hspaces⟩
      exact ⟨before, _, after, hcut, hbefore,
        odfShown_eq_error_iff.mpr ⟨around, attrib, rfl, hblank, hspaces⟩⟩

/-- Every text and tail outside the excluded subtrees is among the fragments. -/
def KeepsEveryText (body : Element) : Prop :=
  ∀ around text, (around, Mark.chars text) ∈ odfVisible [] body → text ≠ [] →
    ∃ fragments, odfExtractText body = .ok fragments ∧ text ∈ fragments

/-- A paragraph with a `text:s` that has a text. -/
def spaceWithText : Element :=
  .mk (odfText "p") [] [] [.mk odfSpaceTag [] ['x'] [] []] []

/-- A whitespace element shows its whitespace and not its text. -/
theorem not_keepsEveryText_spaceWithText : ¬ KeepsEveryText spaceWithText := by
  intro h
  have hmem : ([odfSpaceTag, odfText "p"], Mark.chars ['x']) ∈ odfVisible [] spaceWithText := by
    have hp : odfExcluded (odfText "p") = false := by decide +kernel
    have hs : odfExcluded odfSpaceTag = false := by decide +kernel
    refine List.mem_filter.mpr ⟨?_, by simp [visible, hp, hs]⟩
    simp [spaceWithText, Element.marks, Element.childMarks]
  have hrun : odfExtractText spaceWithText = .ok [[' '], ['\n']] := by
    decide +kernel
  obtain ⟨fragments, hfragments, hin⟩ := h _ _ hmem (by simp)
  rw [hrun] at hfragments
  cases hfragments
  simp at hin

end Inherent
