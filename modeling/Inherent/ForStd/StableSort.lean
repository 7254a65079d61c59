import Mathlib

/-!
# Stable sorts

What `List.mergeSort` keeps of the order of its input, sorts by a key with the greatest key
first, and the first elements of a sort when the parts of the input are cut before it.
-/

namespace StableSort

variable {α : Type*}

/-- Elements of one filter that are in order stay as they are. -/
theorem filter_mergeSort {le : α → α → Bool} (trans : ∀ a b c, le a b → le b c → le a c)
    (total : ∀ a b, le a b || le b a) {l : List α} {p : α → Bool}
    (hsorted : (l.filter p).Pairwise fun a b => le a b) :
    (l.mergeSort le).filter p = l.filter p := by
  have hsub : (l.filter p).Sublist ((l.mergeSort le).filter p) := by
    have := (List.sublist_mergeSort trans total hsorted List.filter_sublist).filter p
    simpa only [List.filter_filter, Bool.and_self] using this
  exact (hsub.eq_of_length ((List.mergeSort_perm l le).symm.filter p).length_eq).symm

section

variable {β : Type*} [LinearOrder β] (key : α → β)

theorem keyGe_trans (a b c : α) (hab : decide (key b ≤ key a)) (hbc : decide (key c ≤ key b)) :
    decide (key c ≤ key a) := by
  rw [decide_eq_true_iff] at *
  exact le_trans hbc hab

theorem keyGe_total (a b : α) : decide (key b ≤ key a) || decide (key a ≤ key b) := by
  simpa using le_total (key b) (key a)

/-- The result is sorted. -/
theorem pairwise_mergeSort_key (l : List α) :
    (l.mergeSort fun a b => key b ≤ key a).Pairwise fun a b => key b ≤ key a := by
  have := List.pairwise_mergeSort (keyGe_trans key) (keyGe_total key) l
  simpa only [decide_eq_true_eq] using this

/-- Elements of one filter that are sorted stay as they are. -/
theorem filter_mergeSort_key {l : List α} {p : α → Bool}
    (hsorted : (l.filter p).Pairwise fun a b => key b ≤ key a) :
    (l.mergeSort fun a b => key b ≤ key a).filter p = l.filter p :=
  filter_mergeSort (keyGe_trans key) (keyGe_total key)
    (hsorted.imp fun h => decide_eq_true h)

/-- Elements with the same key stay in their order. -/
theorem filter_key_mergeSort (l : List α) (b : β) :
    ((l.mergeSort fun a c => key c ≤ key a).filter fun a => key a = b) =
      l.filter fun a => key a = b := by
  apply filter_mergeSort_key
  refine List.pairwise_of_forall_mem_list fun a ha c hc => ?_
  rw [of_decide_eq_true (List.mem_filter.mp ha).2, of_decide_eq_true (List.mem_filter.mp hc).2]

end

/-! ## The first elements -/

section

variable {β : Type*} [LinearOrder β] {key : α → β}

theorem pairwise_mergeSort_le (key : α → β) (l : List α) :
    (l.mergeSort fun a b => key a ≤ key b).Pairwise fun a b => key a ≤ key b := by
  have htrans : ∀ a b c : α, decide (key a ≤ key b) → decide (key b ≤ key c) →
      decide (key a ≤ key c) := by
    intro a b c hab hbc
    rw [decide_eq_true_iff] at *
    exact le_trans hab hbc
  have htotal : ∀ a b : α, decide (key a ≤ key b) || decide (key b ≤ key a) := fun a b => by
    simpa using le_total (key a) (key b)
  simpa only [decide_eq_true_eq] using List.pairwise_mergeSort htrans htotal l

/-- A sorted list is determined by its elements, when only equal ones share a key. -/
theorem eq_of_perm_of_sorted (key : α → β) {l m : List α} (hperm : l.Perm m)
    (hkey : ∀ a ∈ l, ∀ b ∈ l, key a = key b → a = b)
    (hl : l.Pairwise fun a b => key a ≤ key b) (hm : m.Pairwise fun a b => key a ≤ key b) :
    l = m :=
  hperm.eq_of_pairwise
    (fun a b ha hb hab hba => hkey a ha b (hperm.mem_iff.mpr hb) (le_antisymm hab hba)) hl hm

/-- The sort does not depend on the order of its input, when only equal elements share a key. -/
theorem mergeSort_eq_of_perm {l m : List α} (hperm : l.Perm m)
    (hkey : ∀ a ∈ l, ∀ b ∈ l, key a = key b → a = b) :
    (l.mergeSort fun a b => key a ≤ key b) = m.mergeSort fun a b => key a ≤ key b := by
  apply eq_of_perm_of_sorted key
    ((List.mergeSort_perm l _).trans (hperm.trans (List.mergeSort_perm m _).symm))
  · exact fun a ha b hb => hkey a (List.mem_mergeSort.mp ha) b (List.mem_mergeSort.mp hb)
  · exact pairwise_mergeSort_le key l
  · exact pairwise_mergeSort_le key m

/-- A sort by distinct keys commutes with a filter. -/
theorem mergeSort_filter {l : List α} (hkey : ∀ a ∈ l, ∀ b ∈ l, key a = key b → a = b)
    (p : α → Bool) :
    ((l.filter p).mergeSort fun a b => key a ≤ key b) =
      (l.mergeSort fun a b => key a ≤ key b).filter p := by
  apply eq_of_perm_of_sorted key
  · exact (List.mergeSort_perm _ _).trans ((List.mergeSort_perm l _).filter p).symm
  · intro a ha b hb
    exact hkey a (List.mem_of_mem_filter (List.mem_mergeSort.mp ha)) b
      (List.mem_of_mem_filter (List.mem_mergeSort.mp hb))
  · exact pairwise_mergeSort_le key _
  · exact (pairwise_mergeSort_le key l).filter p

/-- Elements that are filtered out behind the first `k` ones make no difference to them. -/
theorem take_filter_of_forall_mem_take {p : α → Bool} {l : List α} {k : Nat}
    (h : ∀ a ∈ l.take k, p a = true) : (l.filter p).take k = l.take k := by
  conv_lhs => rw [← List.take_append_drop k l, List.filter_append, List.filter_eq_self.mpr h]
  rcases Nat.lt_or_ge l.length k with hlt | hge
  · rw [List.drop_eq_nil_of_le hlt.le, List.filter_nil, List.append_nil, List.take_take,
      Nat.min_self]
  · rw [List.take_append_of_le_length (by rw [List.length_take]; omega), List.take_take,
      Nat.min_self]

/-- In a sorted list, fewer than `k` elements are below one of the first `k`. -/
theorem countP_lt_of_mem_take {l : List α} {k : Nat} {a : α}
    (hl : l.Pairwise fun a b => key a ≤ key b) (ha : a ∈ l.take k) :
    l.countP (fun b => key b < key a) < k := by
  rw [← List.take_append_drop k l] at hl
  have hdrop : (l.drop k).countP (fun b => key b < key a) = 0 := by
    rw [List.countP_eq_zero]
    intro b hb
    have := (List.pairwise_append.mp hl).2.2 a ha b hb
    simpa using this
  have htake : (l.take k).countP (fun b => key b < key a) < (l.take k).length := by
    rw [List.countP_lt_length_iff]
    exact ⟨a, ha, by simp⟩
  have hlen := List.length_take_le k l
  conv_lhs => rw [← List.take_append_drop k l, List.countP_append, hdrop]
  omega

/-- An element of a sorted part that is one of the first `k` of the whole is one of the first
    `k` of its part. -/
theorem mem_take_of_mem_take {part l whole : List α} {k : Nat} {a : α} (hpart : a ∈ part)
    (hsorted : part.Pairwise fun a b => key a ≤ key b) (hsub : part.Sublist l)
    (hkey : (l.map key).Nodup) (hperm : whole.Perm l)
    (hwhole : whole.Pairwise fun a b => key a ≤ key b) (ha : a ∈ whole.take k) :
    a ∈ part.take k := by
  by_contra hnot
  have hdrop : a ∈ part.drop k := by
    rw [← List.take_append_drop k part, List.mem_append] at hpart
    exact hpart.resolve_left hnot
  have hlen : (part.take k).length = k := by
    have := List.length_pos_of_mem hdrop
    rw [List.length_drop] at this
    rw [List.length_take]
    omega
  have hbelow : ∀ b ∈ part.take k, key b < key a := by
    intro b hb
    rw [← List.take_append_drop k part] at hsorted
    refine lt_of_le_of_ne ((List.pairwise_append.mp hsorted).2.2 b hb a hdrop) fun heq => ?_
    have hab : b = a := List.inj_on_of_nodup_map hkey
      (hsub.subset (List.mem_of_mem_take hb)) (hsub.subset hpart) heq
    exact hnot (hab ▸ hb)
  have hcount := countP_lt_of_mem_take hwhole ha
  have : k ≤ whole.countP fun b => key b < key a := by
    calc k = (part.take k).countP fun b => key b < key a := by
          rw [List.countP_eq_length.mpr (by simpa using hbelow), hlen]
      _ ≤ l.countP fun b => key b < key a :=
          ((List.take_sublist k part).trans hsub).countP_le
      _ = whole.countP fun b => key b < key a := (hperm.countP_eq _).symm
  omega

/-- Cutting sorted parts to `k` elements does not change the first `k` ones of the whole. -/
theorem take_mergeSort_flatMap_take {parts : List (List α)} {k : Nat}
    (hsorted : ∀ part ∈ parts, part.Pairwise fun a b => key a ≤ key b)
    (hkey : (parts.flatten.map key).Nodup) :
    ((parts.flatMap (List.take k)).mergeSort fun a b => key a ≤ key b).take k =
      (parts.flatten.mergeSort fun a b => key a ≤ key b).take k := by
  classical
  have hinj := List.inj_on_of_nodup_map hkey
  have hnodup : parts.flatten.Nodup := List.Nodup.of_map key hkey
  have hsub : (parts.flatMap (List.take k)).Sublist parts.flatten := by
    rw [← List.flatMap_id]
    exact List.Sublist.flatMap_right parts fun part _ => List.take_sublist k part
  have hperm := List.mergeSort_perm parts.flatten fun a b => key a ≤ key b
  have hwhole := pairwise_mergeSort_le key parts.flatten
  -- the sort of the cut parts leaves out elements of the sort of the whole
  have hfilter : ((parts.flatMap (List.take k)).mergeSort fun a b => key a ≤ key b) =
      (parts.flatten.mergeSort fun a b => key a ≤ key b).filter
        fun a => a ∈ parts.flatMap (List.take k) := by
    apply eq_of_perm_of_sorted key
    · refine (List.mergeSort_perm _ _).trans (List.Perm.trans ?_ (hperm.filter _).symm)
      rw [List.perm_ext_iff_of_nodup (hnodup.sublist hsub) (hnodup.filter _)]
      intro a
      rw [List.mem_filter, decide_eq_true_iff]
      exact ⟨fun ha => ⟨hsub.subset ha, ha⟩, And.right⟩
    · intro a ha b hb
      exact hinj (hsub.subset (List.mem_mergeSort.mp ha))
        (hsub.subset (List.mem_mergeSort.mp hb))
    · exact pairwise_mergeSort_le key _
    · exact hwhole.filter _
  rw [hfilter]
  apply take_filter_of_forall_mem_take
  intro a ha
  obtain ⟨part, hpart, hmem⟩ := List.mem_flatten.mp (hperm.subset (List.mem_of_mem_take ha))
  exact decide_eq_true (List.mem_flatMap.mpr ⟨part, hpart,
    mem_take_of_mem_take hmem (hsorted part hpart) (List.sublist_flatten_of_mem hpart) hkey
      hperm hwhole ha⟩)

end

end StableSort
