import Inherent.Native.Conversation

/-!
# The pieces of a turn

`_split_turn_text` cuts a long turn into windows, strips each and drops those that are
blank.  Every piece is a slice of the turn inside its span, and no character that is
more than whitespace is lost: it is in the content of the piece whose window it is in.
-/

namespace Inherent

/-- The content of the piece is the text between `a` and `b`, inside the span of the
    piece. -/
structure Piece.Slices (piece : Piece) (text : List Char) (a b : Nat) : Prop where
  start_le : piece.2.1 ≤ a
  le : a ≤ b
  le_stop : b ≤ piece.2.2
  stop_le : piece.2.2 ≤ text.length
  content : piece.1.toList = PyStr.slice text a b

/-- The piece is a slice of the text, and holds the character at `p` if this is one of its
    span and more than whitespace. -/
def Piece.SlicesAll (piece : Piece) (text : List Char) : Prop :=
  ∃ a b, piece.Slices text a b ∧ ∀ (p : Nat) (ch : Char), text[p]? = some ch →
    PyStr.isSpace ch = false → piece.2.1 ≤ p → p < piece.2.2 → a ≤ p ∧ p < b

/-! ## One window -/

/-- A window ends within the text, and not before it starts. -/
theorem pieceEnd_bounds {text : List Char} {maxSize start : Nat} (hstart : start < text.length) :
    start ≤ pieceEnd text maxSize start ∧ pieceEnd text maxSize start ≤ text.length := by
  unfold pieceEnd
  dsimp only
  split
  · split
    · rename_i lastSpace hfind
      -- a window that is cut at a blank ends at it
      have hbounds := PyStr.rfindSpace_bounds hfind
      split
      · omega
      · omega
    · omega
  · omega

/-- Stripping a window leaves a slice of the text that holds all of the window but
    whitespace. -/
theorem strip_slice {text : List Char} {start stop : Nat} (hle : start ≤ stop)
    (hstop : stop ≤ text.length) :
    ∃ a b, start ≤ a ∧ a ≤ b ∧ b ≤ stop ∧
      PyStr.strip (PyStr.slice text start stop) = PyStr.slice text a b ∧
      ∀ (p : Nat) (ch : Char), text[p]? = some ch → PyStr.isSpace ch = false → start ≤ p →
        p < stop → a ≤ p ∧ p < b := by
  obtain ⟨a, b, hab, hb, hstrip, hall⟩ := PyStr.strip_eq_slice (PyStr.slice text start stop)
  rw [PyStr.length_slice hstop] at hb
  refine ⟨start + a, start + b, by omega, by omega, by omega, ?_, ?_⟩
  · rw [hstrip, PyStr.slice_slice (by omega)]
  · intro p ch hp hch hstart hlt
    -- the character is at `p - start` of the window
    have hwindow : (PyStr.slice text start stop)[p - start]? = some ch := by
      rw [PyStr.getElem?_slice (by omega), Nat.add_sub_cancel' hstart]
      exact hp
    have := hall (p - start) ch hwindow hch
    omega

/-- The piece of a window. -/
theorem slicesAll_window {text : List Char} {start stop : Nat} (hle : start ≤ stop)
    (hstop : stop ≤ text.length) :
    Piece.SlicesAll (String.ofList (PyStr.strip (PyStr.slice text start stop)), start, stop)
      text := by
  obtain ⟨a, b, ha, hab, hb, hstrip, hall⟩ := strip_slice hle hstop
  refine ⟨a, b, ⟨ha, hab, hb, hstop, ?_⟩, hall⟩
  rw [String.toList_ofList, hstrip]

/-- A window whose piece is dropped holds whitespace only. -/
theorem isSpace_of_strip_eq_nil {text : List Char} {start stop p : Nat} {ch : Char}
    (hle : start ≤ stop) (hstop : stop ≤ text.length)
    (hnil : PyStr.strip (PyStr.slice text start stop) = []) (hp : text[p]? = some ch)
    (hstart : start ≤ p) (hlt : p < stop) : PyStr.isSpace ch = true := by
  by_contra hch
  obtain ⟨a, b, ha, hab, hb, hstrip, hall⟩ := strip_slice hle hstop
  -- a character that is more than whitespace would be left in the piece
  have hin := hall p ch hp (by simpa using hch) hstart hlt
  have hlen : (PyStr.slice text a b).length = b - a := PyStr.length_slice (by omega)
  rw [← hstrip, hnil, List.length_nil] at hlen
  omega

/-! ## The loop -/

/-- Every piece of the loop is a slice of the text. -/
theorem slicesAll_of_mem_splitLoop {text : List Char} {maxSize overlap fuel start : Nat}
    {piece : Piece} (h : piece ∈ splitLoop text maxSize overlap fuel start) :
    piece.SlicesAll text := by
  induction fuel generalizing start with
  | zero => simp [splitLoop] at h
  | succ fuel ih =>
    unfold splitLoop at h
    split at h
    · rename_i hstart
      have hbounds : start ≤ pieceEnd text maxSize start ∧
          pieceEnd text maxSize start ≤ text.length := pieceEnd_bounds hstart
      dsimp only at h
      split at h
      · exact ih h
      · cases h with
        | head => exact slicesAll_window hbounds.1 hbounds.2
        | tail _ h => exact ih h
    · cases h

/-- The loop reaches every character from `start` on that is more than whitespace. -/
theorem exists_mem_splitLoop {text : List Char} {maxSize overlap fuel start p : Nat} {ch : Char}
    (hmax : 0 < maxSize) (hfuel : text.length - start ≤ fuel) (hp : text[p]? = some ch)
    (hch : PyStr.isSpace ch = false) (hstart : start ≤ p) :
    ∃ piece ∈ splitLoop text maxSize overlap fuel start, piece.2.1 ≤ p ∧ p < piece.2.2 := by
  have hlen : p < text.length := (List.getElem?_eq_some_iff.mp hp).1
  induction fuel generalizing start with
  | zero => omega
  | succ fuel ih =>
    have hlt : start < text.length := by omega
    have hend := pieceEnd_gt hmax hlt
    have hbounds : start ≤ pieceEnd text maxSize start ∧
        pieceEnd text maxSize start ≤ text.length := pieceEnd_bounds hlt
    unfold splitLoop
    rw [if_pos hlt]
    dsimp only
    by_cases hin : p < pieceEnd text maxSize start
    · -- `p` is in this window, so its piece is not blank
      have hpiece : PyStr.strip (PyStr.slice text start (pieceEnd text maxSize start)) ≠ [] := by
        intro hnil
        have := isSpace_of_strip_eq_nil hbounds.1 hbounds.2 hnil hp hstart hin
        simp [this] at hch
      rw [if_neg hpiece]
      exact ⟨_, List.mem_cons_self, hstart, hin⟩
    · -- the next window starts later, and not after this one's end
      have hnext : start < (if start < pieceEnd text maxSize start - overlap then
          pieceEnd text maxSize start - overlap else pieceEnd text maxSize start) := by
        split <;> assumption
      have hle : (if start < pieceEnd text maxSize start - overlap then
          pieceEnd text maxSize start - overlap else pieceEnd text maxSize start) ≤ p := by
        split <;> omega
      obtain ⟨piece, hmem, hspan⟩ := ih (by omega) hle
      split
      · exact ⟨piece, hmem, hspan⟩
      · exact ⟨piece, List.mem_cons_of_mem _ hmem, hspan⟩

/-! ## The turn -/

/-- A turn that is not split is the slice of itself. -/
private theorem slices_whole (text : String) :
    Piece.Slices (text, 0, text.toList.length) text.toList 0 text.toList.length where
  start_le := Nat.le_refl 0
  le := Nat.zero_le _
  le_stop := Nat.le_refl _
  stop_le := Nat.le_refl _
  content := by simp [PyStr.slice]

/-- Every piece of a turn is a slice of it. -/
theorem slicesAll_of_mem_splitTurnText {text : String} {maxSize overlap : Nat} {piece : Piece}
    (h : piece ∈ splitTurnText text maxSize overlap) : piece.SlicesAll text.toList := by
  unfold splitTurnText at h
  split at h
  · cases h
  · split at h
    · rw [List.mem_singleton.mp h]
      exact ⟨0, text.toList.length, slices_whole text, fun p ch _ _ hstart hlt => ⟨hstart, hlt⟩⟩
    · exact slicesAll_of_mem_splitLoop h

/-- The pieces of a turn hold every character that is more than whitespace, and every
    character of a turn that is not split. -/
theorem exists_mem_splitTurnText {text : String} {maxSize overlap p : Nat} {ch : Char}
    (hmax : 0 < maxSize) (hp : text.toList[p]? = some ch)
    (hch : PyStr.isSpace ch = false ∨ text.toList.length ≤ maxSize) :
    ∃ piece ∈ splitTurnText text maxSize overlap, ∃ a b,
      piece.Slices text.toList a b ∧ a ≤ p ∧ p < b := by
  have hlen : p < text.toList.length := (List.getElem?_eq_some_iff.mp hp).1
  have hne : text.toList ≠ [] := by
    intro hnil
    rw [hnil] at hlen
    cases hlen
  unfold splitTurnText
  rw [if_neg hne]
  by_cases hshort : text.toList.length ≤ maxSize
  · -- a short turn is one piece, whitespace and all
    rw [if_pos hshort]
    exact ⟨_, List.mem_singleton_self _, 0, text.toList.length, slices_whole text,
      Nat.zero_le p, hlen⟩
  · rw [if_neg hshort]
    have hch := hch.resolve_right hshort
    obtain ⟨piece, hmem, hstart, hlt⟩ : ∃ piece ∈
        splitLoop text.toList maxSize overlap text.toList.length 0,
        piece.2.1 ≤ p ∧ p < piece.2.2 :=
      exists_mem_splitLoop hmax (Nat.sub_le _ 0) hp hch (Nat.zero_le p)
    obtain ⟨a, b, hslice, hall⟩ := slicesAll_of_mem_splitLoop hmem
    exact ⟨piece, hmem, a, b, hslice, hall p ch hp hch hstart hlt⟩

end Inherent
