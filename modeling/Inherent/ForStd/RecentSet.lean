import Inherent.ForStd.FirstOccurrence

/-!
# Bounded sets that forget the oldest element

A set that keeps the last `n` distinct elements of a history: an element that is new to
the set is added, and the oldest one is evicted when the bound is passed.  A history is
listed newest first, and a set oldest first, in the order in which its elements were
added.
-/

namespace RecentSet

open FirstOccurrence (eraseDups_filter nodup_eraseDups)

variable {α : Type*} [DecidableEq α]

/-- The last `n` distinct elements of a history, newest first. -/
def recent (n : Nat) (history : List α) : List α := history.eraseDups.take n

/-- An element is added to a set; the oldest one goes when there are more than `n`. -/
def push (n : Nat) (seen : List α) (a : α) : List α :=
  if n < (seen ++ [a]).length then (seen ++ [a]).tail else seen ++ [a]

/-- The elements of a list are added to a set, without a bound. -/
def insertAll (seen elements : List α) : List α :=
  elements.foldl (fun seen a => if a ∈ seen then seen else seen ++ [a]) seen

theorem length_recent_le (n : Nat) (history : List α) : (recent n history).length ≤ n :=
  List.length_take_le n _

theorem nodup_recent (n : Nat) (history : List α) : (recent n history).Nodup :=
  (nodup_eraseDups history).sublist (List.take_sublist n _)

/-! ## The set of a history -/

omit [DecidableEq α] in
/-- A filter that keeps the first `n` elements keeps them as the first ones. -/
private theorem take_filter_of_forall {p : α → Bool} {n : Nat} {l : List α}
    (h : ∀ a ∈ l.take n, p a = true) : (l.filter p).take n = l.take n := by
  induction n generalizing l with
  | zero => rw [List.take_zero, List.take_zero]
  | succ n ih =>
    cases l with
    | nil => rfl
    | cons a l =>
      have ha : p a = true := h a (by simp)
      -- the head is kept, and so are the next ones
      rw [List.filter_cons_of_pos ha, List.take_succ_cons, List.take_succ_cons, ih]
      intro b hb
      exact h b (List.mem_cons_of_mem _ hb)

/-- An element that is not among the last `n` comes first, and the oldest is forgotten. -/
theorem recent_cons {n : Nat} {history : List α} {a : α} (h : a ∉ recent n history) :
    recent n (a :: history) = (a :: recent n history).take n := by
  cases n with
  | zero => rfl
  | succ n =>
    unfold recent at h ⊢
    rw [List.eraseDups_cons, eraseDups_filter, List.take_succ_cons, List.take_succ_cons,
      List.take_take, Nat.min_eq_left (Nat.le_succ n)]
    congr 1
    apply take_filter_of_forall
    intro b hb
    have hne : b ≠ a := by
      -- the element is new, so the filter of its copies takes nothing from the last ones
      rintro rfl
      exact h (List.take_subset_take_left _ (Nat.le_succ n) hb)
    simpa using hne

/-- `push` keeps the set of a history up to date. -/
theorem reverse_push {n : Nat} {seen history : List α} {a : α}
    (hseen : seen.reverse = recent n history) (ha : a ∉ seen) :
    (push n seen a).reverse = recent n (a :: history) := by
  have hlen : seen.length ≤ n := by
    rw [← List.length_reverse, hseen]
    exact length_recent_le n history
  have hnot : a ∉ recent n history := by rwa [← hseen, List.mem_reverse]
  rw [recent_cons hnot, ← hseen]
  unfold push
  rw [List.length_append, List.length_singleton]
  cases seen with
  | nil => cases n <;> simp
  | cons b seen =>
    rw [List.length_cons] at hlen ⊢
    split
    · -- the set is full, and its first element is the oldest
      have hn : n = seen.length + 1 := by omega
      subst hn
      simp
    · rw [List.take_of_length_le (by simp; omega)]
      simp

/-! ## Loading a set -/

/-- A list without duplicates is added to a set that has none of it as it is. -/
theorem insertAll_eq_append {seen elements : List α} (hnodup : elements.Nodup)
    (hnew : ∀ a ∈ elements, a ∉ seen) : insertAll seen elements = seen ++ elements := by
  unfold insertAll
  induction elements generalizing seen with
  | nil => simp
  | cons a elements ih =>
    rw [List.foldl_cons, if_neg (hnew a List.mem_cons_self), ih (List.nodup_cons.mp hnodup).2]
    · simp
    · intro b hb
      have hne : b ≠ a := fun h => (List.nodup_cons.mp hnodup).1 (h ▸ hb)
      simp [hne, hnew b (List.mem_cons_of_mem _ hb)]

end RecentSet
