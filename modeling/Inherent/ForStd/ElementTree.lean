import Mathlib

/-!
# Element trees

XML elements the way ElementTree keeps them: the text before the first child stands on the
element, and the text behind an element is the `tail` of that element.  `marks` lists a tree
in document order, each piece with the tags of the elements that it stands in, so that a
property of pieces of text can be told from where they stand.
-/

/-- An element; text that is absent is empty. -/
inductive Element where
  | mk (tag : String) (attrib : List (String × List Char)) (text : List Char)
      (children : List Element) (tail : List Char)

namespace Element

/-! ## The fields -/

def tag : Element → String
  | mk tag _ _ _ _ => tag

def attrib : Element → List (String × List Char)
  | mk _ attrib _ _ _ => attrib

def text : Element → List Char
  | mk _ _ text _ _ => text

def children : Element → List Element
  | mk _ _ _ children _ => children

def tail : Element → List Char
  | mk _ _ _ _ tail => tail

/-- The value of an attribute. -/
def get (e : Element) (name : String) : Option (List Char) := e.attrib.lookup name

/-- Induction over a tree: a property holds of an element when it holds of its children. -/
theorem induction {motive : Element → Prop}
    (h : ∀ tag attrib text children tail, (∀ c ∈ children, motive c) →
      motive (mk tag attrib text children tail)) : ∀ e, motive e
  | mk tag attrib text children tail => h tag attrib text children tail (go children)
where
  go : ∀ children : List Element, ∀ c ∈ children, motive c
    | [], _, hc => absurd hc List.not_mem_nil
    | c :: cs, d, hd => by
      cases List.mem_cons.mp hd with
      | inl h' => exact h' ▸ induction h c
      | inr h' => exact go cs d h'

/-! ## Document order -/

/-- What comes one after the other in a document. -/
inductive Mark where
  | start (tag : String) (attrib : List (String × List Char))
  | chars (text : List Char)
  | stop (tag : String)

/-- A piece of a document, and the tags of the elements that it stands in, the innermost
    first.  The two ends of an element stand in it. -/
abbrev Place := List String × Mark

mutual

/-- The pieces of an element that stands under the tags `around`, without its tail. -/
def marks (around : List String) : Element → List Place
  | mk tag attrib text children _ =>
    (tag :: around, .start tag attrib) :: (tag :: around, .chars text) ::
      (childMarks (tag :: around) children ++ [(tag :: around, .stop tag)])

/-- The pieces of the children of an element, each with its tail. -/
def childMarks (around : List String) : List Element → List Place
  | [] => []
  | c :: cs => marks around c ++ (around, .chars c.tail) :: childMarks around cs

end

/-- Every piece of an element stands under the tags around it, and in the element. -/
theorem suffix_of_mem_marks {e : Element} {around : List String} {p : Place}
    (hp : p ∈ e.marks around) : e.tag :: around <:+ p.1 := by
  induction e using Element.induction generalizing around p with
  | h tag attrib text children tail ih =>
    have hchild : ∀ cs : List Element, (∀ c ∈ cs, c ∈ children) →
        p ∈ childMarks (tag :: around) cs → tag :: around <:+ p.1 := by
      intro cs
      induction cs with
      | nil => intro _ hmem; exact absurd hmem List.not_mem_nil
      | cons c cs ihcs =>
        intro hcs hmem
        simp only [childMarks, List.mem_append, List.mem_cons] at hmem
        rcases hmem with hmem | rfl | hmem
        · exact (List.suffix_cons _ _).trans (ih c (hcs c List.mem_cons_self) hmem)
        · exact List.suffix_refl _
        · exact ihcs (fun d hd => hcs d (List.mem_cons_of_mem _ hd)) hmem
    simp only [marks, List.mem_cons, List.mem_append, List.not_mem_nil, or_false] at hp
    rcases hp with rfl | rfl | hp | rfl
    · exact List.suffix_refl _
    · exact List.suffix_refl _
    · exact hchild children (fun _ hc => hc) hp
    · exact List.suffix_refl _

/-! ## Hidden subtrees -/

variable (hidden : String → Bool)

mutual

/-- The tree without what is inside the hidden elements: their attributes, text and
    children. -/
def blank : Element → Element
  | mk tag attrib text children tail =>
    if hidden tag then mk tag [] [] [] tail
    else mk tag attrib text (blankAll children) tail

def blankAll : List Element → List Element
  | [] => []
  | c :: cs => blank c :: blankAll cs

end

/-- A piece is visible when it stands in no hidden element. -/
def visible (p : Place) : Bool := p.1.all fun tag => !hidden tag

@[simp] theorem tail_blank (e : Element) : (e.blank hidden).tail = e.tail := by
  cases e with
  | mk tag attrib text children tail =>
    rw [blank]
    split <;> rfl

/-- A hidden element has no visible piece. -/
theorem filter_visible_of_hidden {e : Element} {around : List String}
    (h : ∃ tag ∈ e.tag :: around, hidden tag = true) :
    (e.marks around).filter (visible hidden) = [] := by
  rw [List.filter_eq_nil_iff]
  intro p hp hvisible
  obtain ⟨tag, htag, hhidden⟩ := h
  have hmem : tag ∈ p.1 := (suffix_of_mem_marks hp).subset htag
  have := List.all_eq_true.mp hvisible tag hmem
  simp [hhidden] at this

/-- What is inside the hidden elements decides nothing about the visible pieces. -/
theorem filter_visible_blank (e : Element) (around : List String) :
    ((e.blank hidden).marks around).filter (visible hidden) =
      (e.marks around).filter (visible hidden) := by
  induction e using Element.induction generalizing around with
  | h tag attrib text children tail ih =>
    by_cases htag : hidden tag = true
    · have hown : ∀ attrib text children, ((mk tag attrib text children tail).marks around).filter
          (visible hidden) = [] := fun attrib text children =>
        filter_visible_of_hidden hidden ⟨tag, List.mem_cons_self, htag⟩
      rw [blank, if_pos htag, hown, hown]
    · have hchildren : ∀ cs : List Element, (∀ c ∈ cs, c ∈ children) →
          (childMarks (tag :: around) (blankAll hidden cs)).filter (visible hidden) =
            (childMarks (tag :: around) cs).filter (visible hidden) := by
        intro cs
        induction cs with
        | nil => intro _; rfl
        | cons c cs ihcs =>
          intro hcs
          simp only [blankAll, childMarks, List.filter_append, List.filter_cons, tail_blank,
            ih c (hcs c List.mem_cons_self),
            ihcs fun d hd => hcs d (List.mem_cons_of_mem _ hd)]
      rw [blank, if_neg htag]
      simp only [marks, List.filter_append, List.filter_cons, hchildren children fun _ h => h]

/-! ## Searches -/

mutual

/-- `e.iter()`: the element and all elements below it, in document order. -/
def iter : Element → List Element
  | e@(mk _ _ _ children _) => e :: iterAll children

def iterAll : List Element → List Element
  | [] => []
  | c :: cs => iter c ++ iterAll cs

end

/-- `e.findall(".//outer/inner")`: the `inner` children of the `outer` elements below. -/
def findall (e : Element) (outer inner : String) : List Element :=
  ((iterAll e.children).filter fun d => d.tag == outer).flatMap fun d =>
    d.children.filter fun c => c.tag == inner

/-- `e.find(".//tag")`. -/
def find? (e : Element) (tag : String) : Option Element :=
  (iterAll e.children).find? fun d => d.tag == tag

end Element
