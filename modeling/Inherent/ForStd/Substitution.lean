import Mathlib

/-!
# Substitution of matches

A matcher looks for a match at a position of a text, and knows the character before it.  The
substitution of its matches, from the left to the right and without overlaps, keeps every
character that is not in a match, and it finds nothing at a position whose character it keeps.
A text in which some matches have been replaced consists of kept characters and of marks; a
later substitution that spares the marks leaves such a text again.
-/

namespace Substitution

variable {α : Type*}

/-- The length of the match at a position, by the character before it and the rest of the
    text.  No match is empty. -/
structure Matcher (α : Type*) where
  find : Option α → List α → Option Nat
  bounds : ∀ prev xs n, find prev xs = some n → 0 < n ∧ n ≤ xs.length

/-- A part of a text with marks: a character that is kept, or a mark for a part that is
    replaced. -/
inductive Segment (α : Type*) where
  | kept (a : α)
  | mark (shown original : List α)
  deriving DecidableEq, Repr

def Segment.shown : Segment α → List α
  | .kept a => [a]
  | .mark shown _ => shown

def Segment.original : Segment α → List α
  | .kept a => [a]
  | .mark _ original => original

/-- Whether the piece is a mark, for a part of which `p` holds. -/
def Segment.marks (p : List α → Bool) : Segment α → Bool
  | .kept _ => false
  | .mark _ original => p original

/-- What the pieces show. -/
def shown (ps : List (Segment α)) : List α := ps.flatMap Segment.shown

/-- The text that the pieces stand for. -/
def originals (ps : List (Segment α)) : List α := ps.flatMap Segment.original

@[simp] theorem shown_nil : shown ([] : List (Segment α)) = [] := rfl

@[simp] theorem shown_cons (p : Segment α) (ps : List (Segment α)) :
    shown (p :: ps) = p.shown ++ shown ps := rfl

@[simp] theorem shown_append (ps qs : List (Segment α)) :
    shown (ps ++ qs) = shown ps ++ shown qs := List.flatMap_append

@[simp] theorem originals_nil : originals ([] : List (Segment α)) = [] := rfl

@[simp] theorem originals_cons (p : Segment α) (ps : List (Segment α)) :
    originals (p :: ps) = p.original ++ originals ps := rfl

@[simp] theorem originals_append (ps qs : List (Segment α)) :
    originals (ps ++ qs) = originals ps ++ originals qs := List.flatMap_append

@[simp] theorem shown_map_kept (xs : List α) : shown (xs.map Segment.kept) = xs := by
  induction xs with
  | nil => rfl
  | cons a xs ih =>
    rw [List.map_cons, shown_cons, ih]
    rfl

@[simp] theorem originals_map_kept (xs : List α) : originals (xs.map Segment.kept) = xs := by
  induction xs with
  | nil => rfl
  | cons a xs ih =>
    rw [List.map_cons, originals_cons, ih]
    rfl

/-! ## The scan -/

/-- The pieces from a position on, `skip` characters behind the position; a match is replaced
    by `repl` of it. -/
def Matcher.scan (m : Matcher α) (repl : List α → List α) :
    Nat → Option α → List α → List (Segment α)
  | _, _, [] => []
  | skip + 1, _, a :: rest => m.scan repl skip (some a) rest
  | 0, prev, a :: rest =>
    match m.find prev (a :: rest) with
    | none => .kept a :: m.scan repl 0 (some a) rest
    | some n => .mark (repl ((a :: rest).take n)) ((a :: rest).take n) ::
        m.scan repl (n - 1) (some a) rest

/-- The character before the position behind `xs`. -/
def before (prev : Option α) (xs : List α) : Option α := xs.getLast?.or prev

@[simp] theorem before_nil (prev : Option α) : before prev [] = prev := by simp [before]

@[simp] theorem before_cons (prev : Option α) (a : α) (xs : List α) :
    before prev (a :: xs) = before (some a) xs := by
  cases h : xs.getLast? with
  | none => simp [before, List.getLast?_cons, h]
  | some b => simp [before, List.getLast?_cons, h]

@[simp] theorem before_append (prev : Option α) (xs ys : List α) :
    before prev (xs ++ ys) = before (before prev xs) ys := by
  induction xs generalizing prev with
  | nil => simp
  | cons a xs ih => rw [List.cons_append, before_cons, before_cons, ih]

section Scan

variable (m : Matcher α) (repl : List α → List α)

@[simp] theorem Matcher.scan_nil (skip : Nat) (prev : Option α) : m.scan repl skip prev [] = [] := by
  cases skip <;> rfl

theorem Matcher.scan_skip (skip : Nat) (prev : Option α) (xs : List α) :
    m.scan repl skip prev xs = m.scan repl 0 (before prev (xs.take skip)) (xs.drop skip) := by
  induction xs generalizing skip prev with
  | nil => simp
  | cons a xs ih =>
    cases skip with
    | zero => simp
    | succ skip =>
      rw [List.take_succ_cons, List.drop_succ_cons, before_cons]
      exact ih skip (some a)

theorem Matcher.scan_kept {prev : Option α} {a : α} {rest : List α}
    (h : m.find prev (a :: rest) = none) :
    m.scan repl 0 prev (a :: rest) = .kept a :: m.scan repl 0 (some a) rest := by
  rw [scan, h]

theorem Matcher.scan_mark {prev : Option α} {xs : List α} {n : Nat} (h : m.find prev xs = some n) :
    m.scan repl 0 prev xs =
      .mark (repl (xs.take n)) (xs.take n) ::
        m.scan repl 0 (before prev (xs.take n)) (xs.drop n) := by
  obtain ⟨hpos, hle⟩ := m.bounds prev xs n h
  cases xs with
  | nil => simp at hle; omega
  | cons a rest =>
    obtain ⟨k, rfl⟩ := Nat.exists_eq_succ_of_ne_zero (Nat.ne_of_gt hpos)
    rw [scan, h]
    simp only [Nat.succ_eq_add_one, Nat.add_sub_cancel, List.take_succ_cons, List.drop_succ_cons,
      before_cons]
    rw [m.scan_skip repl k]

/-- The scan by its rounds: one keeps a character or replaces a match. -/
theorem Matcher.scan_induction {motive : Option α → List α → List (Segment α) → Prop}
    (nil : ∀ prev, motive prev [] [])
    (kept : ∀ prev a rest, m.find prev (a :: rest) = none →
      motive (some a) rest (m.scan repl 0 (some a) rest) →
        motive prev (a :: rest) (.kept a :: m.scan repl 0 (some a) rest))
    (mark : ∀ prev s rest, s ≠ [] → m.find prev (s ++ rest) = some s.length →
      motive (before prev s) rest (m.scan repl 0 (before prev s) rest) →
        motive prev (s ++ rest) (.mark (repl s) s :: m.scan repl 0 (before prev s) rest))
    (prev : Option α) (xs : List α) : motive prev xs (m.scan repl 0 prev xs) := by
  induction hlen : xs.length using Nat.strong_induction_on generalizing prev xs with
  | _ len ih =>
    cases hfind : m.find prev xs with
    | none =>
      cases xs with
      | nil =>
        rw [scan_nil]
        exact nil prev
      | cons a rest =>
        rw [m.scan_kept repl hfind]
        apply kept prev a rest hfind
        exact ih rest.length (by rw [← hlen]; exact Nat.lt_succ_self _) (some a) rest rfl
    | some n =>
      obtain ⟨hpos, hle⟩ := m.bounds prev xs n hfind
      have htake : (xs.take n).length = n := List.length_take_of_le hle
      have hne : xs.take n ≠ [] := by
        intro hnil
        rw [hnil] at htake
        simp at htake
        omega
      have hrest : (xs.drop n).length < len := by
        rw [List.length_drop]
        omega
      -- a round is the match and what is scanned behind it
      have hround := mark prev (xs.take n) (xs.drop n) hne
        (by rw [List.take_append_drop, hfind, htake]) (ih _ hrest _ _ rfl)
      rw [List.take_append_drop] at hround
      rw [m.scan_mark repl hfind]
      exact hround

/-- The pieces stand for the text. -/
@[simp] theorem Matcher.originals_scan (prev : Option α) (xs : List α) :
    originals (m.scan repl 0 prev xs) = xs := by
  induction prev, xs using m.scan_induction repl with
  | nil prev => rfl
  | kept prev a rest _ ih =>
    rw [originals_cons, ih]
    rfl
  | mark prev s rest _ _ ih =>
    rw [originals_cons, ih]
    rfl

/-- What a mark shows does not matter for the scan. -/
theorem Matcher.scan_eq_map (skip : Nat) (prev : Option α) (xs : List α) :
    m.scan repl skip prev xs = (m.scan id skip prev xs).map fun p => match p with
      | .kept a => .kept a
      | .mark _ original => .mark (repl original) original := by
  induction xs generalizing skip prev with
  | nil => simp
  | cons a rest ih =>
    cases skip with
    | succ skip => exact ih skip (some a)
    | zero =>
      rw [scan, scan]
      split
      · rw [List.map_cons, ih]
      · rw [List.map_cons, ih]

/-- What the matcher finds at a piece. -/
def Matcher.finds (m : Matcher α) (repl : List α → List α) (prev : Option α) (xs : List α) :
    Segment α → Prop
  | .kept _ => m.find prev xs = none
  | .mark shown original => m.find prev xs = some original.length ∧ shown = repl original ∧
      original ≠ []

/-- Nothing is found at the position of a character that is kept, and a match at that of a
    mark. -/
theorem Matcher.finds_of_scan {prev : Option α} {xs : List α} {front back : List (Segment α)}
    {p : Segment α} (h : m.scan repl 0 prev xs = front ++ p :: back) :
    m.finds repl (before prev (originals front)) (originals (p :: back)) p := by
  induction front generalizing prev xs with
  | nil =>
    have hxs : originals (p :: back) = xs := by
      rw [← m.originals_scan repl prev xs, h, List.nil_append]
    rw [hxs, originals_nil, before_nil]
    cases hfind : m.find prev xs with
    | none =>
      cases xs with
      | nil => simp at h
      | cons a rest =>
        rw [m.scan_kept repl hfind] at h
        rw [← (List.cons.inj h).1]
        exact hfind
    | some n =>
      obtain ⟨hpos, hle⟩ := m.bounds prev xs n hfind
      have hlen : (xs.take n).length = n := List.length_take_of_le hle
      rw [m.scan_mark repl hfind] at h
      rw [← (List.cons.inj h).1]
      -- a match is not empty
      refine ⟨by rw [hlen, hfind], rfl, fun hnil => ?_⟩
      rw [hnil] at hlen
      simp at hlen
      omega
  | cons q front ih =>
    cases hfind : m.find prev xs with
    | none =>
      cases xs with
      | nil => simp at h
      | cons a rest =>
        rw [m.scan_kept repl hfind, List.cons_append] at h
        obtain ⟨rfl, hrest⟩ := List.cons.inj h
        have := ih hrest
        rwa [originals_cons, Segment.original, List.singleton_append, before_cons]
    | some n =>
      rw [m.scan_mark repl hfind, List.cons_append] at h
      obtain ⟨rfl, hrest⟩ := List.cons.inj h
      have := ih hrest
      rwa [originals_cons, Segment.original, before_append]

/-- The scan shows the mark for every match. -/
theorem Matcher.mark_of_mem_scan {mark s o : List α} {prev : Option α} {xs : List α}
    (h : Segment.mark s o ∈ m.scan (fun _ => mark) 0 prev xs) : s = mark ∧ o ≠ [] := by
  obtain ⟨front, back, hscan⟩ := List.mem_iff_append.mp h
  obtain ⟨-, hs, ho⟩ := m.finds_of_scan _ hscan
  exact ⟨hs, ho⟩

end Scan

/-- The characters that are kept before the first mark. -/
theorem exists_kept_span (ps : List (Segment α)) :
    ∃ (xs : List α) (rest : List (Segment α)), ps = xs.map .kept ++ rest ∧
      (rest = [] ∨ ∃ s o qs, rest = Segment.mark s o :: qs) := by
  induction ps with
  | nil => exact ⟨[], [], rfl, .inl rfl⟩
  | cons p ps ih =>
    cases p with
    | mark s o => exact ⟨[], _, rfl, .inr ⟨s, o, ps, rfl⟩⟩
    | kept a =>
      obtain ⟨xs, rest, rfl, hrest⟩ := ih
      exact ⟨a :: xs, rest, rfl, hrest⟩

/-- What the shown text begins with was there before, or the first mark cuts it. -/
theorem prefix_originals_or_mark {ps : List (Segment α)} {v behind : List α}
    (h : shown ps = v ++ behind) :
    v <+: originals ps ∨
      ∃ (xs v' s o : List α) (rest : List (Segment α)),
        ps = xs.map .kept ++ .mark s o :: rest ∧ v = xs ++ v' ∧ v' ++ behind = s ++ shown rest := by
  obtain ⟨xs, rest, rfl, hrest⟩ := exists_kept_span ps
  rw [shown_append, shown_map_kept] at h
  rw [originals_append, originals_map_kept]
  rcases List.append_eq_append_iff.mp h with ⟨v', rfl, hbehind⟩ | ⟨more, rfl, -⟩
  · rcases hrest with rfl | ⟨s, o, rest, rfl⟩
    · rw [shown_nil] at hbehind
      rw [(List.append_eq_nil_iff.mp hbehind.symm).1, List.append_nil]
      exact .inl (List.prefix_append _ _)
    · exact .inr ⟨xs, v', s, o, rest, rfl, rfl, hbehind.symm⟩
  · rw [List.append_assoc]
    exact .inl (List.prefix_append _ _)

/-! ## The substitution -/

/-- Every match is replaced by the mark. -/
def Matcher.sub (m : Matcher α) (mark text : List α) : List α :=
  shown (m.scan (fun _ => mark) 0 none text)

/-- The number of matches that are replaced. -/
def Matcher.count (m : Matcher α) (text : List α) : Nat :=
  (m.scan id 0 none text).countP (Segment.marks fun _ => true)

/-- The matches are counted whatever they are replaced by. -/
theorem Matcher.countP_scan (m : Matcher α) (repl : List α → List α) (p : List α → Bool)
    (prev : Option α) (xs : List α) :
    (m.scan repl 0 prev xs).countP (Segment.marks p) =
      (m.scan id 0 prev xs).countP (Segment.marks p) := by
  rw [m.scan_eq_map repl, List.countP_map]
  congr 1
  funext q
  cases q <;> rfl

/-- There is a match of the given length at a position of the text. -/
def Matcher.At (m : Matcher α) (front back : List α) (n : Nat) : Prop :=
  m.find (before none front) back = some n

/-- There is no match in the text. -/
def Matcher.Free (m : Matcher α) (text : List α) : Prop :=
  ∀ front back n, text = front ++ back → ¬ m.At front back n

/-- The scan of a text without matches keeps all of it. -/
theorem Matcher.Free.scan {m : Matcher α} {text : List α} (h : m.Free text)
    (repl : List α → List α) : m.scan repl 0 none text = text.map .kept := by
  have hround : ∀ prev xs, (∀ front back n, xs = front ++ back →
      m.find (before prev front) back ≠ some n) → m.scan repl 0 prev xs = xs.map .kept := by
    intro prev xs
    induction prev, xs using m.scan_induction repl with
    | nil prev => exact fun _ => rfl
    | kept prev a rest _ ih =>
      intro hfree
      rw [List.map_cons, ih]
      intro front back n hsplit
      rw [← before_cons prev]
      exact hfree (a :: front) back n (by rw [hsplit, List.cons_append])
    | mark prev s rest _ hfind _ => exact fun hfree => absurd hfind (hfree [] _ _ rfl)
  exact hround none text fun front back n hsplit => h front back n hsplit

/-- The matcher finds a word of `L` at a position where `left` holds of the character before
    it, and finds one at every such position. -/
structure Matcher.Reads (m : Matcher α) (left : Option α → Prop) (L : List α → Prop) : Prop where
  sound : ∀ prev xs n, m.find prev xs = some n → left prev ∧ L (xs.take n)
  complete : ∀ prev w xs, left prev → L w → w <+: xs → ∃ n, m.find prev xs = some n

/-- A text without matches is not changed, and no match is counted. -/
theorem Matcher.Free.sub {m : Matcher α} {text : List α} (h : m.Free text) (mark : List α) :
    m.sub mark text = text ∧ m.count text = 0 := by
  rw [Matcher.sub, Matcher.count, h.scan, h.scan, shown_map_kept]
  refine ⟨rfl, ?_⟩
  rw [List.countP_eq_zero]
  intro p hp
  obtain ⟨a, -, rfl⟩ := List.mem_map.mp hp
  simp [Segment.marks]

/-! ## What marks show -/

/-- A text that starts with nothing of a mark is kept. -/
theorem exists_kept_of_shown_eq {ps : List (Segment α)} {w rest : List α}
    (hmark : ∀ s o, Segment.mark s o ∈ ps → ∃ a ∈ s.head?, a ∉ w)
    (h : shown ps = w ++ rest) : ∃ back, ps = w.map .kept ++ back ∧ shown back = rest := by
  induction w generalizing ps with
  | nil => exact ⟨ps, rfl, h⟩
  | cons a w ih =>
    cases ps with
    | nil => simp at h
    | cons p ps =>
      cases p with
      | kept b =>
        rw [shown_cons, Segment.shown, List.singleton_append, List.cons_append] at h
        obtain ⟨rfl, hrest⟩ := List.cons.inj h
        have hmark' : ∀ s o, Segment.mark s o ∈ ps → ∃ a ∈ s.head?, a ∉ w := by
          intro s o hmem
          obtain ⟨c, hc, hnot⟩ := hmark s o (List.mem_cons_of_mem _ hmem)
          exact ⟨c, hc, fun hin => hnot (List.mem_cons_of_mem _ hin)⟩
        obtain ⟨back, rfl, hback⟩ := ih hmark' hrest
        exact ⟨back, rfl, hback⟩
      | mark s o =>
        obtain ⟨c, hc, hnot⟩ := hmark s o List.mem_cons_self
        obtain ⟨tail, rfl⟩ := List.head?_eq_some_iff.mp hc
        rw [shown_cons, Segment.shown, List.cons_append, List.cons_append] at h
        exact absurd (List.mem_cons.mpr (.inl (List.cons.inj h).1)) hnot

section Brackets

variable {opening closing : α} {body : List α}

/-- A mark between brackets. -/
def bracketed (opening closing : α) (body : List α) : List α := opening :: body ++ [closing]

/-- What is in a mark without its brackets is in its body. -/
theorem infix_body {w front rest : List α} (hopen : opening ∉ w) (hclose : closing ∉ w)
    (hne : w ≠ []) (h : bracketed opening closing body = front ++ w ++ rest) : w <:+: body := by
  cases front with
  | nil =>
    obtain ⟨a, w, rfl⟩ := List.exists_cons_of_ne_nil hne
    have hhead := (List.cons.inj h).1
    exact absurd (List.mem_cons.mpr (.inl hhead)) hopen
  | cons a front =>
    rcases List.eq_nil_or_concat' rest with rfl | ⟨rest, b, rfl⟩
    · obtain ⟨w', c, rfl⟩ := (List.eq_nil_or_concat' w).resolve_left hne
      have hlast : opening :: body ++ [closing] = (a :: front ++ w') ++ [c] := by
        rw [← bracketed, h]
        simp
      have := List.append_inj_right' hlast rfl
      simp only [List.cons.injEq, and_true] at this
      exact absurd (by simp [this]) hclose
    · have hlast : opening :: body ++ [closing] = (a :: front ++ w ++ rest) ++ [b] := by
        rw [← bracketed, h]
        simp
      have hbody := List.append_inj_left' hlast rfl
      simp only [List.cons_append, List.cons.injEq] at hbody
      exact ⟨front, rest, hbody.2.symm⟩

/-- A text without brackets that stands in the text with the marks, and is not in the body of
    a mark, is kept. -/
theorem exists_kept_of_shown {ps : List (Segment α)} {front w rest : List α} (hne : w ≠ [])
    (hmark : ∀ s o, Segment.mark s o ∈ ps → ∃ opening closing body,
      s = bracketed opening closing body ∧ opening ∉ w ∧ closing ∉ w ∧ ¬ w <:+: body)
    (h : shown ps = front ++ w ++ rest) :
    ∃ qs back, ps = qs ++ w.map .kept ++ back ∧ shown qs = front ∧ shown back = rest := by
  induction ps generalizing front with
  | nil =>
    simp only [shown_nil, List.nil_eq, List.append_eq_nil_iff] at h
    exact absurd h.1.2 hne
  | cons p ps ih =>
    have hmark' : ∀ s o, Segment.mark s o ∈ ps → ∃ opening closing body,
        s = bracketed opening closing body ∧ opening ∉ w ∧ closing ∉ w ∧ ¬ w <:+: body :=
      fun s o hmem => hmark s o (List.mem_cons_of_mem _ hmem)
    by_cases hfront : front = []
    · -- the text starts here
      rw [hfront, List.nil_append] at h
      obtain ⟨back, hps, hback⟩ := exists_kept_of_shown_eq (fun s o hmem => by
        obtain ⟨opening, closing, body, rfl, hopen, -⟩ := hmark s o hmem
        exact ⟨opening, rfl, hopen⟩) h
      exact ⟨[], back, by rw [hps, List.nil_append], by rw [hfront]; rfl, hback⟩
    · rw [shown_cons, List.append_assoc] at h
      rcases List.append_eq_append_iff.mp h with ⟨front', rfl, hrest⟩ | ⟨cut, hcut, hrest⟩
      · -- it starts behind the piece
        rw [← List.append_assoc] at hrest
        obtain ⟨qs, back, hps, hqs, hback⟩ := ih hmark' hrest
        refine ⟨p :: qs, back, by rw [hps]; rfl, by rw [shown_cons, hqs], hback⟩
      · by_cases hnil : cut = []
        · rw [hnil, List.append_nil] at hcut
          rw [hnil, List.nil_append] at hrest
          have hrest' : shown ps = [] ++ w ++ rest := by rw [← hrest, List.nil_append]
          obtain ⟨qs, back, hps, hqs, hback⟩ := ih hmark' hrest'
          refine ⟨p :: qs, back, by rw [hps]; rfl, by rw [shown_cons, hqs, List.append_nil, hcut],
            hback⟩
        · -- it would start inside of the piece
          cases p with
          | kept a =>
            rw [Segment.shown] at hcut
            have hlen := congrArg List.length hcut
            have hpos := List.length_pos_iff.mpr hfront
            have hpos' := List.length_pos_iff.mpr hnil
            simp only [List.length_singleton, List.length_append] at hlen
            omega
          | mark s o =>
            obtain ⟨opening, closing, body, rfl, hopen, hclose, hbody⟩ :=
              hmark s o List.mem_cons_self
            rw [Segment.shown] at hcut
            rcases List.append_eq_append_iff.mp hrest with ⟨tail, hw, -⟩ | ⟨tail, hw, -⟩
            · rw [hw, ← List.append_assoc] at hcut
              exact absurd (infix_body hopen hclose hne hcut) hbody
            · -- it would have the closing bracket
              obtain ⟨cut', c, rfl⟩ := (List.eq_nil_or_concat' cut).resolve_left hnil
              rw [bracketed, ← List.append_assoc] at hcut
              have hlast := List.append_inj_right' hcut rfl
              simp only [List.cons.injEq, and_true] at hlast
              rw [hw, hlast] at hclose
              exact absurd (by simp) hclose

/-- A text without brackets stands before a mark or behind it. -/
theorem disjoint_bracketed {front w rest x y : List α} (hne : w ≠ []) (hopen : opening ∉ w)
    (hclose : closing ∉ w) (hbody : ¬ w <:+: body)
    (h : front ++ (w ++ rest) = x ++ (bracketed opening closing body ++ y)) :
    front.length + w.length ≤ x.length ∨
      x.length + (bracketed opening closing body).length ≤ front.length := by
  -- a part that ends in the opening bracket would have it inside
  have hstart : ∀ b, b ++ rest = bracketed opening closing body ++ y → b <:+ w → b = [] := by
    intro b hb hsuffix
    cases b with
    | nil => rfl
    | cons c b =>
      rw [bracketed, List.cons_append, List.cons_append, List.cons_append] at hb
      rw [(List.cons.inj hb).1] at hsuffix
      exact absurd (hsuffix.subset List.mem_cons_self) hopen
  rcases List.append_eq_append_iff.mp h with ⟨a, rfl, hrest⟩ | ⟨b, rfl, hrest⟩
  · left
    rcases List.append_eq_append_iff.mp hrest with ⟨a', rfl, -⟩ | ⟨b, rfl, hmark⟩
    · rw [List.length_append, List.length_append]
      omega
    · rw [hstart b hmark.symm (List.suffix_append _ _), List.append_nil, List.length_append]
  · rcases List.append_eq_append_iff.mp hrest with ⟨b', rfl, -⟩ | ⟨b', hmark, hw⟩
    · right
      simp only [List.length_append]
      omega
    · rcases List.append_eq_append_iff.mp hw with ⟨t, hb', -⟩ | ⟨t, hw', -⟩
      · rw [hb', ← List.append_assoc] at hmark
        exact absurd (infix_body hopen hclose hne hmark) hbody
      · right
        rcases List.eq_nil_or_concat' b' with rfl | ⟨b', c, rfl⟩
        · rw [hmark, List.append_nil, List.length_append]
        · rw [bracketed, ← List.append_assoc] at hmark
          have hlast := List.append_inj_right' hmark rfl
          simp only [List.cons.injEq, and_true] at hlast
          rw [hw', hlast] at hclose
          exact absurd (by simp) hclose

end Brackets

/-- A match that ends inside of a mark has a character of the mark behind it and one at its
    end. -/
theorem mem_of_inside {mark front back x y : List α} {n : Nat}
    (h : front ++ back = x ++ mark ++ y) (hn : n ≤ back.length) (hpos : 0 < n)
    (hlow : x.length < front.length + n) (hhigh : front.length + n < x.length + mark.length) :
    (∃ c ∈ (back.drop n).head?, c ∈ mark) ∧ ∃ c ∈ (back.take n).getLast?, c ∈ mark := by
  have hchar : ∀ i, front.length ≤ i → x.length ≤ i → i < x.length + mark.length →
      ∃ c, back[i - front.length]? = some c ∧ c ∈ mark := by
    intro i hfront hx hlt
    have hget : (front ++ back)[i]? = mark[i - x.length]? := by
      rw [h, List.append_assoc, List.getElem?_append_right hx,
        List.getElem?_append_left (by omega)]
    rw [List.getElem?_append_right hfront,
      List.getElem?_eq_getElem (show i - x.length < mark.length by omega)] at hget
    exact ⟨_, hget, List.getElem_mem _⟩
  constructor
  · obtain ⟨c, hc, hmem⟩ := hchar (front.length + n) (by omega) (by omega) hhigh
    rw [Nat.add_sub_cancel_left] at hc
    exact ⟨c, by rw [List.head?_drop]; exact hc, hmem⟩
  · obtain ⟨c, hc, hmem⟩ := hchar (front.length + n - 1) (by omega) (by omega) (by omega)
    have hindex : front.length + n - 1 - front.length = n - 1 := by omega
    rw [hindex] at hc
    refine ⟨c, ?_, hmem⟩
    rw [List.getLast?_eq_getElem?, List.length_take_of_le hn, List.getElem?_take_of_lt (by omega)]
    exact hc

/-! ## A text with marks -/

/-- `out` is the text with some parts replaced by marks, no part of them empty. -/
def Marked (marks : List (List α)) (text out : List α) : Prop :=
  ∃ ps, originals ps = text ∧ shown ps = out ∧
    ∀ s o, Segment.mark s o ∈ ps → s ∈ marks ∧ o ≠ []

theorem Marked.refl (text : List α) : Marked [] text text := by
  refine ⟨text.map .kept, originals_map_kept text, shown_map_kept text, fun s o hmem => ?_⟩
  obtain ⟨a, -, ha⟩ := List.mem_map.mp hmem
  cases ha

theorem Marked.mono {marks marks' : List (List α)} {text out : List α}
    (h : Marked marks text out) (hsub : marks ⊆ marks') : Marked marks' text out := by
  obtain ⟨ps, horig, hshown, hmarks⟩ := h
  exact ⟨ps, horig, hshown, fun s o hmem => ⟨hsub (hmarks s o hmem).1, (hmarks s o hmem).2⟩⟩

/-- No match begins or ends inside of the mark. -/
def Matcher.Spares (m : Matcher α) (mark : List α) : Prop :=
  ∀ front back n, m.At front back n → ∀ x y, front ++ back = x ++ mark ++ y →
    ¬ (x.length < front.length ∧ front.length < x.length + mark.length) ∧
      ¬ (x.length < front.length + n ∧ front.length + n < x.length + mark.length)

/-- A position that is not inside of a mark is one between two pieces. -/
theorem exists_split_of_length {ps : List (Segment α)} {n : Nat} (hn : n ≤ (shown ps).length)
    (hinside : ∀ qs s o rs, ps = qs ++ Segment.mark s o :: rs →
      ¬ ((shown qs).length < n ∧ n < (shown qs).length + s.length)) :
    ∃ qs rs, ps = qs ++ rs ∧ (shown qs).length = n := by
  induction ps generalizing n with
  | nil => exact ⟨[], [], rfl, (Nat.le_zero.mp hn).symm⟩
  | cons p ps ih =>
    by_cases hzero : n = 0
    · exact ⟨[], p :: ps, rfl, hzero.symm⟩
    · have hp : p.shown.length ≤ n := by
        cases p with
        | kept a =>
          rw [Segment.shown, List.length_singleton]
          omega
        | mark s o =>
          have := hinside [] s o ps rfl
          simp only [shown_nil, List.length_nil, Nat.zero_add] at this
          rw [Segment.shown]
          omega
      rw [shown_cons, List.length_append] at hn
      obtain ⟨qs, rs, rfl, hqs⟩ := @ih (n - p.shown.length) (by omega) (by
        intro qs s o rs hps
        have := hinside (p :: qs) s o rs (by rw [hps, List.cons_append])
        rw [shown_cons, List.length_append] at this
        omega)
      refine ⟨p :: qs, rs, rfl, ?_⟩
      rw [shown_cons, List.length_append, hqs]
      omega

theorem originals_ne_nil {ps : List (Segment α)} (hne : ps ≠ [])
    (hmark : ∀ s o, Segment.mark s o ∈ ps → o ≠ []) : originals ps ≠ [] := by
  obtain ⟨p, ps, rfl⟩ := List.exists_cons_of_ne_nil hne
  cases p with
  | kept a => simp [Segment.original]
  | mark s o =>
    have ho := hmark s o List.mem_cons_self
    simp [Segment.original, ho]

section Marked

variable {m : Matcher α} {repl : List α → List α}

/-- A part in which no match begins is kept. -/
theorem Matcher.scan_append_of_none {prev : Option α} {s rest : List α}
    (h : ∀ x y, s = x ++ y → y ≠ [] → m.find (before prev x) (y ++ rest) = none) :
    m.scan repl 0 prev (s ++ rest) = s.map .kept ++ m.scan repl 0 (before prev s) rest := by
  induction s generalizing prev with
  | nil => simp
  | cons a s ih =>
    have hhead := h [] (a :: s) rfl (List.cons_ne_nil a s)
    rw [before_nil, List.cons_append] at hhead
    rw [List.cons_append, m.scan_kept repl hhead, ih, List.map_cons, List.cons_append, before_cons]
    intro x y hxy hne
    rw [← before_cons prev]
    exact h (a :: x) y (by rw [hxy, List.cons_append]) hne

variable {marks : List (List α)} {mark : List α}

/-- The scan of what pieces show, piece by piece. -/
theorem exists_pieces_of_scan (mark : List α) (hspares : ∀ s ∈ marks, m.Spares s) (ps : List (Segment α))
    (hps : ∀ s o, Segment.mark s o ∈ ps → s ∈ marks ∧ o ≠ []) (front : List α) :
    ∃ qs, originals qs = originals ps ∧
      shown qs = shown (m.scan (fun _ => mark) 0 (before none front) (shown ps)) ∧
        ∀ s o, Segment.mark s o ∈ qs → s ∈ mark :: marks ∧ o ≠ [] := by
  induction hlen : ps.length using Nat.strong_induction_on generalizing ps front with
  | _ len ih =>
    have hmem : ∀ qs rs : List (Segment α), ps = qs ++ rs →
        ∀ s o, Segment.mark s o ∈ rs → s ∈ marks ∧ o ≠ [] := by
      intro qs rs hsplit s o hin
      exact hps s o (by rw [hsplit]; exact List.mem_append_right _ hin)
    cases hfind : m.find (before none front) (shown ps) with
    | some n =>
      -- a match is made of whole pieces
      obtain ⟨hpos, hle⟩ := m.bounds _ _ n hfind
      have hinside : ∀ qs s o rs, ps = qs ++ Segment.mark s o :: rs →
          ¬ ((shown qs).length < n ∧ n < (shown qs).length + s.length) := by
        intro qs s o rs hsplit
        have hs := (hmem qs _ hsplit s o List.mem_cons_self).1
        have := (hspares s hs front (shown ps) n hfind (front ++ shown qs) (shown rs) (by
          rw [hsplit]
          simp [Segment.shown])).2
        rw [List.length_append] at this
        omega
      obtain ⟨qs, rs, rfl, hqs⟩ := exists_split_of_length hle hinside
      have hne : qs ≠ [] := by
        rintro rfl
        simp at hqs
        omega
      have hlt : rs.length < len := by
        have := List.length_pos_iff.mpr hne
        rw [← hlen, List.length_append]
        omega
      obtain ⟨rs', horig, hshown, hmarks⟩ := ih rs.length hlt rs (hmem qs rs rfl)
        (front ++ shown qs) rfl
      refine ⟨.mark mark (originals qs) :: rs', ?_, ?_, ?_⟩
      · rw [originals_cons, horig, originals_append]
        rfl
      · rw [m.scan_mark _ hfind, shown_append, ← hqs, List.take_left, List.drop_left, shown_cons,
          shown_cons, hshown, before_append]
        rfl
      · intro s o hin
        rcases List.mem_cons.mp hin with heq | hin
        · cases heq
          exact ⟨List.mem_cons_self, originals_ne_nil hne fun s o hin =>
            (hps s o (List.mem_append_left _ hin)).2⟩
        · exact hmarks s o hin
    | none =>
      cases ps with
      | nil => exact ⟨[], rfl, by simp, by simp⟩
      | cons p ps =>
        -- the piece is kept, whether it is a character or a mark
        have hscan : m.scan (fun _ => mark) 0 (before none front) (p.shown ++ shown ps) =
            p.shown.map .kept ++
              m.scan (fun _ => mark) 0 (before none (front ++ p.shown)) (shown ps) := by
          rw [before_append]
          apply Matcher.scan_append_of_none
          intro x y hxy hne
          by_cases hx : x = []
          · rw [hx, List.nil_append] at hxy
            rw [hx, before_nil, ← hxy]
            exact hfind
          · cases hinner : m.find (before (before none front) x) (y ++ shown ps) with
            | none => rfl
            | some k =>
              have hxpos := List.length_pos_iff.mpr hx
              have hypos := List.length_pos_iff.mpr hne
              have hxlen := congrArg List.length hxy
              rw [List.length_append] at hxlen
              cases p with
              | kept a =>
                rw [Segment.shown, List.length_singleton] at hxlen
                omega
              | mark s o =>
                rw [← before_append] at hinner
                have hs := (hps s o List.mem_cons_self).1
                rw [Segment.shown] at hxy hxlen
                have := (hspares s hs (front ++ x) (y ++ shown ps) k hinner front (shown ps) (by
                  rw [hxy]
                  simp)).1
                rw [List.length_append] at this
                omega
        obtain ⟨qs, horig, hshown, hmarks⟩ := ih ps.length (by rw [← hlen]; simp) ps
          (hmem [p] ps rfl) (front ++ p.shown) rfl
        refine ⟨p :: qs, ?_, ?_, ?_⟩
        · rw [originals_cons, originals_cons, horig]
        · rw [shown_cons, shown_cons, hscan, shown_append, shown_map_kept, hshown]
        · intro s o hin
          rcases List.mem_cons.mp hin with heq | hin
          · have := hps s o (by rw [heq]; exact List.mem_cons_self)
            exact ⟨List.mem_cons_of_mem _ this.1, this.2⟩
          · exact hmarks s o hin

/-- A substitution that spares the marks of a text leaves a text with marks. -/
theorem Marked.sub {text out : List α} (h : Marked marks text out)
    (hspares : ∀ s ∈ marks, m.Spares s) : Marked (mark :: marks) text (m.sub mark out) := by
  obtain ⟨ps, horig, hshown, hmarks⟩ := h
  obtain ⟨qs, horig', hshown', hmarks'⟩ := exists_pieces_of_scan mark hspares ps hmarks []
  refine ⟨qs, horig'.trans horig, ?_, hmarks'⟩
  rw [hshown', hshown]
  rfl

end Marked

/-! ## Deletion -/

/-- What is left of a text from a position on, when matches are deleted. -/
def Matcher.deleted (m : Matcher α) (prev : Option α) (xs : List α) : List α :=
  shown (m.scan (fun _ => []) 0 prev xs)

section Deletion

variable {m : Matcher α}

theorem Matcher.sub_nil (m : Matcher α) (text : List α) : m.sub [] text = m.deleted none text := rfl

theorem Matcher.deleted_nil (prev : Option α) : m.deleted prev [] = [] := by
  rw [deleted, scan_nil, shown_nil]

theorem Matcher.deleted_of_none {prev : Option α} {a : α} {rest : List α}
    (h : m.find prev (a :: rest) = none) :
    m.deleted prev (a :: rest) = a :: m.deleted (some a) rest := by
  rw [deleted, m.scan_kept _ h]
  rfl

/-- A character that is left is one at whose position nothing is found. -/
theorem Matcher.exists_of_deleted_eq {prev : Option α} {xs front rest : List α} {a : α}
    (h : m.deleted prev xs = front ++ a :: rest) :
    ∃ front' rest', xs = front' ++ a :: rest' ∧ m.find (before prev front') (a :: rest') = none ∧
      m.deleted (some a) rest' = rest := by
  unfold Matcher.deleted at h
  induction prev, xs using m.scan_induction (fun _ => []) generalizing front with
  | nil prev => simp at h
  | kept prev b xs hfind ih =>
    cases front with
    | nil =>
      obtain ⟨rfl, hrest⟩ := List.cons.inj h
      exact ⟨[], xs, rfl, by rwa [before_nil], hrest⟩
    | cons c front =>
      obtain ⟨front', rest', rfl, hfind', hrest⟩ := ih (List.cons.inj h).2
      exact ⟨b :: front', rest', rfl, by rwa [before_cons], hrest⟩
  | mark prev s xs _ _ ih =>
    rw [shown_cons, Segment.shown, List.nil_append] at h
    obtain ⟨front', rest', rfl, hfind', hrest⟩ := ih h
    exact ⟨s ++ front', rest', by rw [List.append_assoc], by rwa [before_append], hrest⟩

/-- What is left from a position on that is in no match is left at the end. -/
theorem Matcher.deleted_suffix {prev : Option α} {xs front back : List α} (h : xs = front ++ back)
    (hout : ∀ prev s t rest, m.find prev (s ++ t ++ rest) = some (s ++ t).length → s ≠ [] →
      t ++ rest = back → t = []) :
    m.deleted (before prev front) back <:+ m.deleted prev xs := by
  subst h
  unfold Matcher.deleted
  generalize hxs : front ++ back = xs
  induction prev, xs using m.scan_induction (fun _ => []) generalizing front with
  | nil prev =>
    obtain ⟨rfl, rfl⟩ := List.append_eq_nil_iff.mp hxs
    rw [before_nil, scan_nil]
  | kept prev b xs hfind ih =>
    cases front with
    | nil =>
      rw [List.nil_append] at hxs
      rw [before_nil, hxs, m.scan_kept _ hfind]
    | cons c front =>
      obtain ⟨rfl, hrest⟩ := List.cons.inj hxs
      rw [before_cons]
      exact (ih hrest).trans (List.suffix_cons _ _)
  | mark prev s xs hne hfind ih =>
    rw [shown_cons, Segment.shown, List.nil_append]
    rcases List.append_eq_append_iff.mp hxs with ⟨t, rfl, rfl⟩ | ⟨t, rfl, hrest⟩
    · -- the position is at the match or inside of it
      by_cases hfront : front = []
      · rw [hfront, List.nil_append] at hfind ⊢
        rw [before_nil, m.scan_mark _ hfind, List.take_left, List.drop_left]
        exact List.suffix_rfl
      · have ht := hout prev front t xs hfind hfront rfl
        rw [ht, List.nil_append, List.append_nil]
    · rw [before_append]
      exact ih hrest.symm

end Deletion

end Substitution
