import Mathlib

/-!
# Patterns of literals and runs

A pattern is a sequence of literals, of runs of characters of a class, and of a fixed number
of characters of a class.  A run takes as many characters as there are.  That is what a
backtracking matcher finds too if what follows a run begins with a character that is not in
its class: such a pattern finds a match wherever there is a word of its language.
-/

namespace RunPattern

variable {α : Type*}

/-- A step of a pattern: a literal, a run of `least` characters at least, or `count`
    characters. -/
inductive Step (α : Type*) where
  | lit (literal : List α)
  | run (p : α → Bool) (least : Nat)
  | exactly (p : α → Bool) (count : Nat)

/-- The length of the match of the steps at the start of a text. -/
def consume [DecidableEq α] : List (Step α) → List α → Option Nat
  | [], _ => some 0
  | .lit literal :: steps, xs =>
    if literal <+: xs then
      (consume steps (xs.drop literal.length)).map fun n => literal.length + n
    else none
  | .run p least :: steps, xs =>
    if least ≤ (xs.takeWhile p).length then
      (consume steps (xs.dropWhile p)).map fun n => (xs.takeWhile p).length + n
    else none
  | .exactly p count :: steps, xs =>
    if count ≤ (xs.takeWhile p).length then
      (consume steps (xs.drop count)).map fun n => count + n
    else none

/-- The words of a pattern. -/
def Word : List (Step α) → List α → Prop
  | [], w => w = []
  | .lit literal :: steps, w => ∃ v, w = literal ++ v ∧ Word steps v
  | .run p least :: steps, w =>
    ∃ r v, w = r ++ v ∧ (∀ a ∈ r, p a = true) ∧ least ≤ r.length ∧ Word steps v
  | .exactly p count :: steps, w =>
    ∃ r v, w = r ++ v ∧ (∀ a ∈ r, p a = true) ∧ r.length = count ∧ Word steps v

/-- What follows a run begins with a character that is not in its class. -/
def separated : List (Step α) → Bool
  | .run p _ :: .lit (a :: _) :: steps => !p a && separated steps
  | .run _ _ :: _ :: _ => false
  | _ :: steps => separated steps
  | [] => true

/-- The characters that a step may take. -/
def Step.Allows : Step α → α → Prop
  | .lit literal, a => a ∈ literal
  | .run p _, a => p a = true
  | .exactly p _, a => p a = true

/-- The characters of a word. -/
theorem Word.allows {steps : List (Step α)} {w : List α} (h : Word steps w) {a : α}
    (ha : a ∈ w) : ∃ s ∈ steps, s.Allows a := by
  induction steps generalizing w with
  | nil =>
    rw [Word] at h
    rw [h] at ha
    cases ha
  | cons s steps ih =>
    have hrest : ∀ v, Word steps v → a ∈ v → ∃ t ∈ s :: steps, t.Allows a := by
      intro v hv hin
      obtain ⟨t, ht, hallows⟩ := ih hv hin
      exact ⟨t, List.mem_cons_of_mem _ ht, hallows⟩
    cases s with
    | lit literal =>
      obtain ⟨v, rfl, hv⟩ := h
      rcases List.mem_append.mp ha with hin | hin
      · exact ⟨_, List.mem_cons_self, hin⟩
      · exact hrest v hv hin
    | run p least =>
      obtain ⟨r, v, rfl, hr, -, hv⟩ := h
      rcases List.mem_append.mp ha with hin | hin
      · exact ⟨_, List.mem_cons_self, hr a hin⟩
      · exact hrest v hv hin
    | exactly p count =>
      obtain ⟨r, v, rfl, hr, -, hv⟩ := h
      rcases List.mem_append.mp ha with hin | hin
      · exact ⟨_, List.mem_cons_self, hr a hin⟩
      · exact hrest v hv hin

/-- The literal that a pattern begins with. -/
def leading : List (Step α) → List α
  | .lit literal :: _ => literal
  | _ => []

theorem Word.leading_isPrefix {steps : List (Step α)} {w : List α} (h : Word steps w) :
    leading steps <+: w := by
  cases steps with
  | nil => exact List.nil_prefix
  | cons s steps =>
    cases s with
    | lit literal =>
      obtain ⟨v, rfl, -⟩ := h
      exact List.prefix_append _ _
    | run p least => exact List.nil_prefix
    | exactly p count => exact List.nil_prefix

theorem dropWhile_eq_drop (p : α → Bool) (xs : List α) :
    xs.dropWhile p = xs.drop (xs.takeWhile p).length := by
  conv_rhs => rw [← List.takeWhile_append_dropWhile (p := p) (l := xs)]
  rw [List.drop_append_of_le_length (by rw [List.takeWhile_append_dropWhile])]
  simp

/-- A run with something else behind it. -/
theorem takeWhile_append_of_all {p : α → Bool} {r rest : List α} (hr : ∀ a ∈ r, p a = true)
    (hrest : ∀ a ∈ rest.head?, p a = false) :
    (r ++ rest).takeWhile p = r ∧ (r ++ rest).dropWhile p = rest := by
  have hnil : rest.takeWhile p = [] ∧ rest.dropWhile p = rest := by
    cases rest with
    | nil => exact ⟨rfl, rfl⟩
    | cons a rest =>
      have ha := hrest a rfl
      simp [ha]
  rw [List.takeWhile_append_of_pos hr, List.dropWhile_append_of_pos hr, hnil.1, hnil.2,
    List.append_nil]
  exact ⟨rfl, rfl⟩

/-- The length that every word has at least. -/
def leastLength : List (Step α) → Nat
  | [] => 0
  | .lit literal :: steps => literal.length + leastLength steps
  | .run _ least :: steps => least + leastLength steps
  | .exactly _ count :: steps => count + leastLength steps

theorem Word.leastLength_le {steps : List (Step α)} {w : List α} (h : Word steps w) :
    leastLength steps ≤ w.length := by
  induction steps generalizing w with
  | nil => exact Nat.zero_le _
  | cons s steps ih =>
    cases s with
    | lit literal =>
      obtain ⟨v, rfl, hv⟩ := h
      have := ih hv
      rw [leastLength, List.length_append]
      omega
    | run p least =>
      obtain ⟨r, v, rfl, -, hleast, hv⟩ := h
      have := ih hv
      rw [leastLength, List.length_append]
      omega
    | exactly p count =>
      obtain ⟨r, v, rfl, -, hcount, hv⟩ := h
      have := ih hv
      rw [leastLength, List.length_append]
      omega

variable [DecidableEq α]

instance Step.decidableAllows (s : Step α) (a : α) : Decidable (s.Allows a) :=
  match s with
  | .lit literal => inferInstanceAs (Decidable (a ∈ literal))
  | .run p _ => inferInstanceAs (Decidable (p a = true))
  | .exactly p _ => inferInstanceAs (Decidable (p a = true))

/-- What the steps match is a word. -/
theorem word_of_consume {steps : List (Step α)} {xs : List α} {n : Nat}
    (h : consume steps xs = some n) : n ≤ xs.length ∧ Word steps (xs.take n) := by
  induction steps generalizing xs n with
  | nil =>
    cases h
    exact ⟨Nat.zero_le _, rfl⟩
  | cons s steps ih =>
    cases s with
    | lit literal =>
      rw [consume] at h
      split at h
      · rename_i hliteral
        obtain ⟨k, hk, rfl⟩ := Option.map_eq_some_iff.mp h
        obtain ⟨rest, rfl⟩ := hliteral
        rw [List.drop_left] at hk
        obtain ⟨hle, hword⟩ := ih hk
        refine ⟨by rw [List.length_append]; omega, rest.take k, ?_, hword⟩
        rw [List.take_length_add_append]
      · cases h
    | run p least =>
      rw [consume] at h
      split at h
      · rename_i hleast
        obtain ⟨k, hk, rfl⟩ := Option.map_eq_some_iff.mp h
        obtain ⟨hle, hword⟩ := ih hk
        have hxs := List.takeWhile_append_dropWhile (p := p) (l := xs)
        have hlen := congrArg List.length hxs
        rw [List.length_append] at hlen
        refine ⟨by omega, xs.takeWhile p, (xs.dropWhile p).take k, ?_,
          fun a ha => List.mem_takeWhile_imp ha, hleast, hword⟩
        -- what the step takes is the whole run
        have htake := List.prefix_iff_eq_take.mp (List.takeWhile_prefix p (l := xs))
        rw [List.take_add, ← htake, dropWhile_eq_drop]
      · cases h
    | exactly p count =>
      rw [consume] at h
      split at h
      · rename_i hcount
        obtain ⟨k, hk, rfl⟩ := Option.map_eq_some_iff.mp h
        obtain ⟨hle, hword⟩ := ih hk
        have hxs := (List.takeWhile_prefix p (l := xs)).length_le
        rw [List.length_drop] at hle
        refine ⟨by omega, xs.take count, (xs.drop count).take k, ?_, fun a ha => ?_,
          List.length_take_of_le (by omega), hword⟩
        · rw [List.take_add]
        · have htake : xs.take count <+: xs.takeWhile p :=
            List.prefix_of_prefix_length_le (List.take_prefix count xs)
              (List.takeWhile_prefix p) (by rw [List.length_take]; omega)
          exact List.mem_takeWhile_imp (htake.subset ha)
      · cases h

/-- Where a text starts with a word, the steps match. -/
theorem consume_of_word {steps : List (Step α)} (hsep : separated steps = true) {w xs : List α}
    (h : Word steps w) (hw : w <+: xs) : ∃ n, consume steps xs = some n := by
  induction steps generalizing w xs with
  | nil => exact ⟨0, rfl⟩
  | cons s steps ih =>
    cases s with
    | lit literal =>
      obtain ⟨v, rfl, hv⟩ := h
      obtain ⟨rest, rfl⟩ := hw
      obtain ⟨n, hn⟩ := ih hsep hv (List.prefix_append v rest)
      refine ⟨literal.length + n, ?_⟩
      rw [consume, List.append_assoc, if_pos (List.prefix_append literal _), List.drop_left, hn]
      rfl
    | exactly p count =>
      obtain ⟨r, v, rfl, hr, hcount, hv⟩ := h
      obtain ⟨rest, rfl⟩ := hw
      obtain ⟨n, hn⟩ := ih hsep hv (List.prefix_append v rest)
      refine ⟨count + n, ?_⟩
      have hle : count ≤ ((r ++ (v ++ rest)).takeWhile p).length := by
        rw [List.takeWhile_append_of_pos hr, List.length_append]
        omega
      rw [consume, List.append_assoc, if_pos hle, ← hcount, List.drop_left, hn]
      rfl
    | run p least =>
      obtain ⟨r, v, rfl, hr, hleast, hv⟩ := h
      obtain ⟨rest, rfl⟩ := hw
      have hle : least ≤ ((r ++ (v ++ rest)).takeWhile p).length := by
        rw [List.takeWhile_append_of_pos hr, List.length_append]
        omega
      rw [List.append_assoc, consume, if_pos hle]
      cases steps with
      | nil => exact ⟨_, rfl⟩
      | cons t steps =>
        -- the literal behind the run ends it
        cases t with
        | run q least' => simp [separated] at hsep
        | exactly q count => simp [separated] at hsep
        | lit literal =>
          cases literal with
          | nil => simp [separated] at hsep
          | cons a literal =>
            simp only [separated, Bool.and_eq_true, Bool.not_eq_true'] at hsep
            have hhead : ∀ b ∈ (v ++ rest).head?, p b = false := by
              obtain ⟨v', rfl, -⟩ := hv
              intro b hb
              simp only [List.cons_append, List.head?_cons, Option.mem_some_iff] at hb
              rw [← hb]
              exact hsep.1
            obtain ⟨n, hn⟩ := ih hsep.2 hv (List.prefix_append v rest)
            obtain ⟨htake, hdrop⟩ := takeWhile_append_of_all hr hhead
            rw [hdrop, hn]
            exact ⟨_, rfl⟩

/-- A pattern that ends with a run leaves none of its characters. -/
theorem head_of_consume (steps : List (Step α)) {p : α → Bool} {least : Nat} {xs : List α}
    {n : Nat} (h : consume (steps ++ [.run p least]) xs = some n) :
    ∀ a ∈ (xs.drop n).head?, p a = false := by
  induction steps generalizing xs n with
  | nil =>
    rw [List.nil_append, consume] at h
    split at h
    · obtain ⟨k, hk, rfl⟩ := Option.map_eq_some_iff.mp h
      cases hk
      rw [Nat.add_zero, ← dropWhile_eq_drop]
      intro a ha
      have := List.head?_dropWhile_not p xs
      rw [Option.mem_def.mp ha] at this
      exact this
    · cases h
  | cons s steps ih =>
    rw [List.cons_append] at h
    cases s with
    | lit literal =>
      rw [consume] at h
      split at h
      · obtain ⟨k, hk, rfl⟩ := Option.map_eq_some_iff.mp h
        have := ih hk
        rwa [List.drop_drop] at this
      · cases h
    | run q least' =>
      rw [consume] at h
      split at h
      · obtain ⟨k, hk, rfl⟩ := Option.map_eq_some_iff.mp h
        rw [dropWhile_eq_drop] at hk
        have := ih hk
        rwa [List.drop_drop] at this
      · cases h
    | exactly q count =>
      rw [consume] at h
      split at h
      · obtain ⟨k, hk, rfl⟩ := Option.map_eq_some_iff.mp h
        have := ih hk
        rwa [List.drop_drop] at this
      · cases h

/-- A pattern with a step that takes something matches more than nothing. -/
theorem consume_bounds {steps : List (Step α)} (hsteps : 0 < leastLength steps) {xs : List α}
    {n : Nat} (h : consume steps xs = some n) : 0 < n ∧ n ≤ xs.length := by
  obtain ⟨hle, hword⟩ := word_of_consume h
  have := hword.leastLength_le
  rw [List.length_take_of_le hle] at this
  omega

/-- The first of some patterns that matches. -/
def alternatives (patterns : List (List (Step α))) (xs : List α) : Option Nat :=
  patterns.findSome? fun steps => consume steps xs

/-- What is matched is a word of one of the patterns. -/
theorem word_of_alternatives {patterns : List (List (Step α))} {xs : List α} {n : Nat}
    (h : alternatives patterns xs = some n) :
    ∃ steps ∈ patterns, consume steps xs = some n ∧ n ≤ xs.length ∧ Word steps (xs.take n) := by
  obtain ⟨steps, hmem, hn⟩ := List.exists_of_findSome?_eq_some h
  exact ⟨steps, hmem, hn, word_of_consume hn⟩

/-- Where a text starts with a word of one of the patterns, there is a match. -/
theorem alternatives_of_word {patterns : List (List (Step α))} {steps : List (Step α)}
    (hmem : steps ∈ patterns) (hsep : separated steps = true) {w xs : List α}
    (h : Word steps w) (hw : w <+: xs) : ∃ n, alternatives patterns xs = some n := by
  obtain ⟨n, hn⟩ := consume_of_word hsep h hw
  cases halt : alternatives patterns xs with
  | some k => exact ⟨k, rfl⟩
  | none =>
    have := List.findSome?_eq_none_iff.mp halt steps hmem
    rw [hn] at this
    cases this

theorem alternatives_bounds {patterns : List (List (Step α))}
    (hpatterns : ∀ steps ∈ patterns, 0 < leastLength steps) {xs : List α} {n : Nat}
    (h : alternatives patterns xs = some n) : 0 < n ∧ n ≤ xs.length := by
  obtain ⟨steps, hmem, hn, -⟩ := word_of_alternatives h
  exact consume_bounds (hpatterns steps hmem) hn

/-! ## A lazy gap -/

omit [DecidableEq α]

/-- As few characters as possible, and what `stop` matches behind them. -/
def lazily (stop : List α → Option Nat) : List α → Option Nat
  | [] => stop []
  | a :: rest =>
    match stop (a :: rest) with
    | some n => some n
    | none => (lazily stop rest).map fun n => 1 + n

theorem exists_of_lazily {stop : List α → Option Nat} {xs : List α} {n : Nat}
    (h : lazily stop xs = some n) :
    ∃ k m, n = k + m ∧ k ≤ xs.length ∧ stop (xs.drop k) = some m := by
  induction xs generalizing n with
  | nil => exact ⟨0, n, (Nat.zero_add n).symm, Nat.le_refl _, h⟩
  | cons a rest ih =>
    rw [lazily] at h
    split at h
    · rename_i k hstop
      cases h
      exact ⟨0, n, (Nat.zero_add n).symm, Nat.zero_le _, hstop⟩
    · obtain ⟨k, hk, rfl⟩ := Option.map_eq_some_iff.mp h
      obtain ⟨i, m, rfl, hle, hstop⟩ := ih hk
      refine ⟨1 + i, m, by omega, by rw [List.length_cons]; omega, ?_⟩
      rw [Nat.add_comm, List.drop_succ_cons, hstop]

theorem lazily_of_drop {stop : List α → Option Nat} {xs : List α} (k : Nat) {m : Nat}
    (hk : k ≤ xs.length) (h : stop (xs.drop k) = some m) : ∃ n, lazily stop xs = some n := by
  induction xs generalizing k with
  | nil =>
    rw [List.drop_nil] at h
    exact ⟨m, h⟩
  | cons a rest ih =>
    rw [lazily]
    cases hstop : stop (a :: rest) with
    | some n => exact ⟨n, rfl⟩
    | none =>
      cases k with
      | zero =>
        rw [List.drop_zero, hstop] at h
        cases h
      | succ k =>
        rw [List.drop_succ_cons] at h
        obtain ⟨n, hn⟩ := ih k (Nat.le_of_succ_le_succ hk) h
        exact ⟨1 + n, by simp [hn]⟩

end RunPattern
