import Mathlib

/-!
# Word tokens of a text

A word tokenizer cuts a text at the characters that belong to no word and puts every word
in lower case.  An index over such words answers a query by its words: a text `Contains`
a query that brings no other word, and `Meets` a query with a word in common.
-/

namespace WordTokens

/-- The characters that words are made of, and the lower case of a character. -/
structure Tokenizer (α : Type*) where
  isWord : α → Bool
  lower : α → α

namespace Tokenizer

variable {α : Type*} (t : Tokenizer α)

/-- The words of a text: its maximal runs of word characters, in lower case. -/
def words (text : List α) : List (List α) :=
  ((text.splitOnP fun a => !t.isWord a).filter fun run => !run.isEmpty).map (·.map t.lower)

/-- The text has every word of the query. -/
def Contains (text query : List α) : Prop := t.words query ⊆ t.words text

/-- The text has some word of the query. -/
def Meets (text query : List α) : Prop := ∃ w ∈ t.words query, w ∈ t.words text

instance [DecidableEq α] (text query : List α) : Decidable (t.Contains text query) :=
  inferInstanceAs (Decidable (t.words query ⊆ t.words text))

instance [DecidableEq α] (text query : List α) : Decidable (t.Meets text query) :=
  inferInstanceAs (Decidable (∃ w ∈ t.words query, w ∈ t.words text))

@[simp] theorem words_nil : t.words [] = [] := rfl

/-- A character that belongs to no word separates the words on its two sides. -/
theorem words_append_cons (left right : List α) {a : α} (ha : t.isWord a = false) :
    t.words (left ++ a :: right) = t.words left ++ t.words right := by
  have hsplit : (left ++ a :: right).splitOnP (fun a => !t.isWord a) =
      left.splitOnP (fun a => !t.isWord a) ++ right.splitOnP (fun a => !t.isWord a) :=
    List.splitOnP_append_cons left right (by simp [ha])
  simp only [words, hsplit, List.filter_append, List.map_append]

/-- A text of word characters is one word. -/
theorem words_of_forall {text : List α} (hne : text ≠ []) (h : ∀ a ∈ text, t.isWord a = true) :
    t.words text = [text.map t.lower] := by
  have hsplit : text.splitOnP (fun a => !t.isWord a) = [text] :=
    List.splitOnP_eq_singleton fun a ha => by simp [h a ha]
  have hkept : (!text.isEmpty) = true := by simpa using hne
  simp only [words, hsplit, List.filter_cons, hkept, if_true, List.filter_nil, List.map_cons,
    List.map_nil]

theorem contains_refl (text : List α) : t.Contains text text := List.Subset.refl _

end Tokenizer

end WordTokens
