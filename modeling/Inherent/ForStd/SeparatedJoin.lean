import Mathlib

/-!
# Lists between separators

What a list without a separator is in a text, it is in one of the pieces of the text; with one
separator inside, it goes from one piece into the next.
-/

namespace SplitLines

variable {α : Type*} {sep : α}

/-- Pieces that stand in the text as they do in its split. -/
theorem intercalate_infix_of_infix {l₁ l₂ : List α} {pieces : List (List α)}
    (h : [l₁, l₂] <:+: pieces) : l₁ ++ sep :: l₂ <:+: [sep].intercalate pieces := by
  induction pieces with
  | nil => simp at h
  | cons piece pieces ih =>
    -- the two pieces are the first two, or both come later
    rcases List.infix_cons_iff.mp h with hhead | htail
    · obtain ⟨rest, hrest⟩ := hhead
      rw [← hrest, List.cons_append, List.cons_append, List.nil_append, List.intercalate_cons_cons]
      cases rest with
      | nil => exact ⟨[], [], by simp⟩
      | cons next rest =>
        rw [List.intercalate_cons_cons]
        exact ⟨[], [sep] ++ [sep].intercalate (next :: rest), by simp⟩
    · cases pieces with
      | nil => simp at htail
      | cons next pieces =>
        rw [List.intercalate_cons_cons]
        exact List.infix_append_of_infix_right (ih htail)

/-- What is filtered out of the pieces is filtered out of the text, if the separator stays. -/
theorem filter_intercalate {p : α → Bool} (hsep : p sep = true) (pieces : List (List α)) :
    ([sep].intercalate pieces).filter p = [sep].intercalate (pieces.map (List.filter p)) := by
  induction pieces with
  | nil => rfl
  | cons piece pieces ih =>
    cases pieces with
    | nil => simp
    | cons next pieces =>
      rw [List.intercalate_cons_cons, List.map_cons, List.map_cons, List.intercalate_cons_cons,
        List.filter_append, List.filter_append, ih]
      simp [hsep]

variable [DecidableEq α]

theorem notMem_of_mem_splitOn {text piece : List α} (h : piece ∈ text.splitOn sep) :
    sep ∉ piece := by
  induction text generalizing piece with
  | nil =>
    rw [List.splitOn_nil, List.mem_singleton] at h
    rw [h]
    exact List.not_mem_nil
  | cons a text ih =>
    obtain ⟨first, rest, hsplit⟩ := List.exists_cons_of_ne_nil (List.splitOn_ne_nil sep text)
    rw [List.splitOn_cons_eq_if_modifyHead] at h
    split at h
    · rcases List.mem_cons.mp h with rfl | h
      · exact List.not_mem_nil
      · exact ih h
    · rename_i hne
      -- an element that is not the separator joins the first piece
      rw [hsplit, List.modifyHead_cons] at h
      rcases List.mem_cons.mp h with rfl | h
      · have hfirst := ih (hsplit ▸ List.mem_cons_self)
        intro hmem
        rcases List.mem_cons.mp hmem with rfl | hmem
        · simp at hne
        · exact hfirst hmem
      · exact ih (hsplit ▸ List.mem_cons_of_mem _ h)

/-- A text whose first piece has the list at its start. -/
theorem exists_head_splitOn {v : List α} (hv : sep ∉ v) (rest : List α) :
    ∃ piece pieces, (v ++ rest).splitOn sep = (v ++ piece) :: pieces := by
  induction v with
  | nil =>
    obtain ⟨piece, pieces, hsplit⟩ := List.exists_cons_of_ne_nil (List.splitOn_ne_nil sep rest)
    exact ⟨piece, pieces, hsplit⟩
  | cons a v ih =>
    have hne : a ≠ sep := fun h => hv (by rw [h]; exact List.mem_cons_self)
    obtain ⟨piece, pieces, hsplit⟩ := ih fun hin => hv (List.mem_cons_of_mem _ hin)
    refine ⟨piece, pieces, ?_⟩
    rw [List.cons_append, List.splitOn_cons_eq_if_modifyHead, hsplit,
      if_neg (by simpa using hne)]
    rfl

/-- A text whose last piece has the list at its end. -/
theorem exists_last_splitOn {u : List α} (hu : sep ∉ u) (front : List α) :
    ∃ pieces piece, (front ++ u).splitOn sep = pieces ++ [piece ++ u] := by
  induction front with
  | nil => exact ⟨[], [], by simpa using List.splitOn_eq_singleton hu⟩
  | cons a front ih =>
    obtain ⟨pieces, piece, hsplit⟩ := ih
    rw [List.cons_append, List.splitOn_cons_eq_if_modifyHead, hsplit]
    split
    · exact ⟨[] :: pieces, piece, rfl⟩
    · cases pieces with
      | nil => exact ⟨[], a :: piece, rfl⟩
      | cons first pieces => exact ⟨(a :: first) :: pieces, piece, rfl⟩

/-- A list with one separator inside goes from one piece into the next. -/
theorem cons_infix_iff {u v text : List α} (hu : sep ∉ u) (hv : sep ∉ v) :
    u ++ sep :: v <:+: text ↔
      ∃ l₁ l₂, [l₁, l₂] <:+: text.splitOn sep ∧ u <:+ l₁ ∧ v <+: l₂ := by
  constructor
  · rintro ⟨front, back, rfl⟩
    -- the separator parts what is before it from what is behind it
    obtain ⟨pieces, l₁, hlast⟩ := exists_last_splitOn hu front
    obtain ⟨l₂, pieces', hhead⟩ := exists_head_splitOn hv back
    refine ⟨l₁ ++ u, v ++ l₂, ⟨pieces, pieces', ?_⟩, List.suffix_append _ _, List.prefix_append _ _⟩
    have htext : front ++ (u ++ sep :: v) ++ back = (front ++ u) ++ sep :: (v ++ back) := by simp
    rw [htext, List.splitOn_append_cons_self, hlast, hhead]
    simp
  · rintro ⟨l₁, l₂, hpieces, ⟨x, rfl⟩, ⟨y, rfl⟩⟩
    have hinfix : (x ++ u) ++ sep :: (v ++ y) <:+: [sep].intercalate (text.splitOn sep) :=
      intercalate_infix_of_infix hpieces
    rw [List.intercalate_splitOn] at hinfix
    refine List.IsInfix.trans ⟨x, y, ?_⟩ hinfix
    simp

/-- A list without a separator is in one of the pieces. -/
theorem exists_mem_of_infix {w text : List α} (hw : sep ∉ w) (h : w <:+: text) :
    ∃ piece ∈ text.splitOn sep, w <:+: piece := by
  obtain ⟨front, back, rfl⟩ := h
  -- what follows the list in its piece
  obtain ⟨v, rest, rfl, hv, hrest⟩ : ∃ v rest, back = v ++ rest ∧ sep ∉ v ∧
      (rest = [] ∨ ∃ rest', rest = sep :: rest') := by
    by_cases hback : sep ∈ back
    · obtain ⟨v, rest, rfl, hv⟩ := List.eq_append_cons_of_mem hback
      exact ⟨v, sep :: rest, rfl, hv, .inr ⟨rest, rfl⟩⟩
    · exact ⟨back, [], by simp, hback, .inl rfl⟩
  have hwv : sep ∉ w ++ v := by simp [hw, hv]
  obtain ⟨pieces, piece, hlast⟩ := exists_last_splitOn hwv front
  refine ⟨piece ++ (w ++ v), ?_, piece, v, by simp⟩
  rcases hrest with rfl | ⟨rest, rfl⟩
  · rw [List.append_nil, List.append_assoc, hlast]
    simp
  · have htext : front ++ w ++ (v ++ sep :: rest) = (front ++ (w ++ v)) ++ sep :: rest := by simp
    rw [htext, List.splitOn_append_cons_self, hlast]
    simp

end SplitLines

/-!
## Joining with a separator and splitting at it

`split` cuts a list where a separator of one or more elements stands, from the left.  It undoes
`List.intercalate` if no separator begins inside a piece: inside of it and of what it makes
with the beginning of the separator behind it (`split_intercalate`).  `skip_eq_drop` is about
any scan that skips elements.
-/

namespace SeparatedJoin

/-- A scan that skips elements goes on behind them. -/
theorem skip_eq_drop {α β : Type*} {scan : Nat → List α → β}
    (hcons : ∀ skip a l, scan (skip + 1) (a :: l) = scan skip l)
    (hnil : ∀ skip, scan (skip + 1) [] = scan 0 []) (skip : Nat) (l : List α) :
    scan skip l = scan 0 (l.drop skip) := by
  induction l generalizing skip with
  | nil =>
    cases skip with
    | zero => rfl
    | succ skip => exact hnil skip
  | cons a l ih =>
    cases skip with
    | zero => rfl
    | succ skip => exact (hcons skip a l).trans (ih skip)

variable {α : Type*} [DecidableEq α] (sep : List α)

/-- The pieces between separators, behind the elements of a separator that are skipped. -/
def splitFrom : Nat → List α → List (List α)
  | _, [] => [[]]
  | skip + 1, _ :: rest => splitFrom skip rest
  | 0, a :: rest =>
    if sep.isPrefixOf (a :: rest) then [] :: splitFrom (sep.length - 1) rest
    else (splitFrom 0 rest).modifyHead (a :: ·)

/-- The pieces of a list between separators. -/
def split (l : List α) : List (List α) := splitFrom sep 0 l

/-- No separator begins in a piece that is followed by another one. -/
def Closed (piece : List α) : Prop := ¬ sep <:+: piece ++ sep.dropLast

/-- No separator begins in the pieces. -/
def Separated (pieces : List (List α)) : Prop :=
  (∀ piece ∈ pieces.dropLast, Closed sep piece) ∧ ∀ piece ∈ pieces.getLast?, ¬ sep <:+: piece

instance (piece : List α) : Decidable (Closed sep piece) :=
  inferInstanceAs (Decidable (¬ sep <:+: piece ++ sep.dropLast))

instance (pieces : List (List α)) : Decidable (Separated sep pieces) :=
  inferInstanceAs (Decidable (_ ∧ _))

variable {sep}

theorem splitFrom_drop (skip : Nat) (l : List α) :
    splitFrom sep skip l = splitFrom sep 0 (l.drop skip) :=
  skip_eq_drop (fun _ _ _ => rfl) (fun _ => rfl) skip l

/-- A piece without a separator is one piece. -/
theorem split_of_not_infix {piece : List α} (h : ¬ sep <:+: piece) :
    split sep piece = [piece] := by
  unfold split
  induction piece with
  | nil => rfl
  | cons a piece ih =>
    have hhead : sep.isPrefixOf (a :: piece) = false := by
      rw [Bool.eq_false_iff, Ne, List.isPrefixOf_iff_prefix]
      exact fun hp => h hp.isInfix
    rw [splitFrom, hhead, ih fun hin => h (hin.trans (List.suffix_cons a piece).isInfix)]
    rfl

/-- A piece is cut off at the separator behind it. -/
theorem split_append (hne : sep ≠ []) {piece : List α} (h : Closed sep piece) (rest : List α) :
    split sep (piece ++ sep ++ rest) = piece :: split sep rest := by
  unfold split
  induction piece with
  | nil =>
    obtain ⟨a, tail, rfl⟩ := List.exists_cons_of_ne_nil hne
    have hhead : (a :: tail).isPrefixOf (a :: (tail ++ rest)) = true :=
      List.isPrefixOf_iff_prefix.mpr ⟨rest, rfl⟩
    rw [List.nil_append, List.cons_append, splitFrom, hhead, splitFrom_drop]
    simp
  | cons a piece ih =>
    have hhead : sep.isPrefixOf (a :: (piece ++ sep ++ rest)) = false := by
      rw [Bool.eq_false_iff, Ne, List.isPrefixOf_iff_prefix]
      intro hp
      -- the separator would end before the one behind the piece does
      have hlong : a :: (piece ++ sep.dropLast) <+: a :: (piece ++ sep ++ rest) := by
        have hlast := List.dropLast_append_getLast hne
        refine List.prefix_cons_inj a |>.mpr ⟨[sep.getLast hne] ++ rest, ?_⟩
        rw [List.append_assoc piece, ← List.append_assoc sep.dropLast, hlast, List.append_assoc]
      refine h (List.prefix_of_prefix_length_le hp hlong ?_).isInfix
      have := List.length_pos_iff.mpr hne
      simp only [List.length_cons, List.length_append, List.length_dropLast]
      omega
    have hrest : Closed sep piece := fun hin => h (hin.trans (List.suffix_cons a _).isInfix)
    rw [List.cons_append, List.cons_append, splitFrom, hhead, ih hrest]
    rfl

/-- The pieces of a joined list are those that were joined. -/
theorem split_intercalate (hne : sep ≠ []) {pieces : List (List α)} (hpieces : pieces ≠ [])
    (h : Separated sep pieces) : split sep (sep.intercalate pieces) = pieces := by
  induction pieces with
  | nil => exact absurd rfl hpieces
  | cons piece pieces ih =>
    cases pieces with
    | nil => simpa using split_of_not_infix (h.2 piece rfl)
    | cons next pieces =>
      rw [List.intercalate_cons_cons, split_append hne (h.1 piece (by simp)),
        ih (by simp) ⟨fun p hp => h.1 p (by simp [hp]), fun p hp => h.2 p (by simpa using hp)⟩]

end SeparatedJoin
