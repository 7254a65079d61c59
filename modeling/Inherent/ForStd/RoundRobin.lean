import Mathlib

/-!
# Round-robin over queues

Queues with keys are served in rounds: each round takes the head of every queue that is not
empty, in the order of the keys.  A prefix of the result takes a prefix of each queue, and takes
an element of a queue in a round only behind the elements of the queues that come before it.
-/

namespace RoundRobin

variable {α κ : Type*}

/-- The heads of the queues that are not empty. -/
def heads (keys : List κ) (queue : κ → List α) : List α := keys.filterMap fun k => (queue k).head?

/-- The first rounds. -/
def rounds (keys : List κ) : Nat → (κ → List α) → List α
  | 0, _ => []
  | n + 1, queue => heads keys queue ++ rounds keys n fun k => (queue k).tail

/-- A prefix of two lists in a row ends in the first one or in the second one. -/
theorem prefix_append_cases {p a b : List α} (h : p <+: a ++ b) :
    p <+: a ∨ ∃ q, p = a ++ q ∧ q <+: b := by
  obtain ⟨r, hr⟩ := h
  rcases List.append_eq_append_iff.mp hr with ⟨s, hs, -⟩ | ⟨s, hs, hb⟩
  · exact .inl ⟨s, hs.symm⟩
  · exact .inr ⟨s, hs, r, hb.symm⟩

/-- With no element left there is nothing to serve. -/
theorem heads_of_empty {keys : List κ} {queue : κ → List α} (h : ∀ k ∈ keys, queue k = []) :
    heads keys queue = [] := by
  rw [heads, List.filterMap_eq_nil_iff]
  intro k hk
  rw [h k hk, List.head?_nil]

theorem rounds_of_empty {keys : List κ} {queue : κ → List α} (n : Nat)
    (h : ∀ k ∈ keys, queue k = []) : rounds keys n queue = [] := by
  induction n generalizing queue with
  | zero => rfl
  | succ n ih =>
    rw [rounds, heads_of_empty h, ih, List.append_nil]
    intro k hk
    rw [h k hk, List.tail_nil]

section Keyed

variable [DecidableEq κ] {key : α → κ} {keys : List κ} {queue : κ → List α}

/-- Every element waits in the queue of its key. -/
def Keyed (key : α → κ) (keys : List κ) (queue : κ → List α) : Prop :=
  ∀ k ∈ keys, ∀ x ∈ queue k, key x = k

omit [DecidableEq κ] in
theorem Keyed.tail (h : Keyed key keys queue) : Keyed key keys fun k => (queue k).tail :=
  fun k hk x hx => h k hk x (List.mem_of_mem_tail hx)

omit [DecidableEq κ] in
theorem Keyed.mem_heads (h : Keyed key keys queue) {x : α} (hx : x ∈ heads keys queue) :
    key x ∈ keys := by
  obtain ⟨k, hk, hhead⟩ := List.mem_filterMap.mp hx
  rw [h k hk x (List.mem_of_mem_head? hhead)]
  exact hk

omit [DecidableEq κ] in
theorem Keyed.mem_rounds (h : Keyed key keys queue) {n : Nat} {x : α}
    (hx : x ∈ rounds keys n queue) : key x ∈ keys := by
  induction n generalizing queue with
  | zero => cases hx
  | succ n ih =>
    rcases List.mem_append.mp hx with hx | hx
    · exact h.mem_heads hx
    · exact ih h.tail hx

/-- A round takes the head of a queue. -/
theorem Keyed.filter_heads (h : Keyed key keys queue) (hnodup : keys.Nodup) {k : κ}
    (hk : k ∈ keys) :
    ((heads keys queue).filter fun x => key x = k) = (queue k).head?.toList := by
  induction keys with
  | nil => cases hk
  | cons j keys ih =>
    obtain ⟨hj, hnodup⟩ := List.nodup_cons.mp hnodup
    have hrest : Keyed key keys queue := fun i hi => h i (List.mem_cons_of_mem _ hi)
    have hkey : ∀ x, (queue j).head? = some x → key x = j := fun x hx =>
      h j List.mem_cons_self x (List.mem_of_mem_head? hx)
    rw [heads, List.filterMap_cons]
    by_cases hjk : j = k
    · subst hjk
      -- the later queues have other keys
      have hnone : ((heads keys queue).filter fun x => key x = j) = [] := by
        rw [List.filter_eq_nil_iff]
        intro x hx
        have hne : key x ≠ j := fun heq => hj (heq ▸ hrest.mem_heads hx)
        simpa using hne
      split
      · next hempty => rw [hempty, ← heads, hnone, Option.toList_none]
      · next x hx =>
        rw [hx, List.filter_cons_of_pos (by simpa using hkey x hx), ← heads, hnone,
          Option.toList_some]
    · have hk' : k ∈ keys := (List.mem_cons.mp hk).resolve_left (Ne.symm hjk)
      split
      · exact ih hrest hnodup hk'
      · next x hx =>
        rw [List.filter_cons_of_neg (by simpa [hkey x hx] using hjk)]
        exact ih hrest hnodup hk'

/-- The rounds take a queue in its order. -/
theorem Keyed.filter_rounds (h : Keyed key keys queue) (hnodup : keys.Nodup) {n : Nat} {k : κ}
    (hk : k ∈ keys) (hn : (queue k).length ≤ n) :
    ((rounds keys n queue).filter fun x => key x = k) = queue k := by
  induction n generalizing queue with
  | zero => rw [List.length_eq_zero_iff.mp (Nat.le_zero.mp hn), rounds, List.filter_nil]
  | succ n ih =>
    have htail := ih h.tail (by simpa using hn)
    rw [rounds, List.filter_append, h.filter_heads hnodup hk, htail]
    cases queue k with
    | nil => rfl
    | cons x xs => rfl

/-! ## Fairness -/

/-- How many elements of a queue a list has. -/
def taken (key : α → κ) (k : κ) (p : List α) : Nat := (p.filter fun x => key x = k).length

theorem taken_append (key : α → κ) (k : κ) (p q : List α) :
    taken key k (p ++ q) = taken key k p + taken key k q := by
  rw [taken, List.filter_append, List.length_append, taken, taken]

theorem taken_cons (key : α → κ) (k : κ) (x : α) (p : List α) :
    taken key k (x :: p) = (if key x = k then 1 else 0) + taken key k p := by
  unfold taken
  by_cases hx : key x = k <;> simp [hx, Nat.add_comm]

theorem taken_le_of_prefix {k : κ} {p q : List α} (h : p <+: q) :
    taken key k p ≤ taken key k q :=
  (h.filter _).length_le

/-- A round takes one element of each queue that is not empty. -/
theorem Keyed.taken_heads (h : Keyed key keys queue) (hnodup : keys.Nodup) {k : κ}
    (hk : k ∈ keys) : taken key k (heads keys queue) = min 1 (queue k).length := by
  rw [taken, h.filter_heads hnodup hk]
  cases queue k with
  | nil => rfl
  | cons x xs => simp

/-- What a round has taken of a queue it has taken of the queues before it. -/
theorem Keyed.taken_of_before (h : Keyed key keys queue) {p : List α}
    (hp : p <+: heads keys queue) {d e : κ} (hbefore : keys.idxOf e < keys.idxOf d)
    (hd : 0 < taken key d p) (he : e ∈ keys) (hqueue : queue e ≠ []) : 0 < taken key e p := by
  induction keys generalizing p with
  | nil => cases he
  | cons k keys ih =>
    have hrest : Keyed key keys queue := fun i hi => h i (List.mem_cons_of_mem _ hi)
    rw [heads, List.filterMap_cons] at hp
    by_cases hke : k = e
    · subst hke
      obtain ⟨x, xs, hx⟩ := List.exists_cons_of_ne_nil hqueue
      rw [hx, List.head?_cons] at hp
      cases p with
      | nil => simp [taken] at hd
      | cons y p =>
        -- the head of the queue of `e` comes first
        obtain rfl : y = x := (List.cons_prefix_cons.mp hp).1
        have hkey : key y = k := h k List.mem_cons_self y (by simp [hx])
        rw [taken_cons, if_pos hkey]
        omega
    · have hkd : k ≠ d := by
        intro hkd
        rw [hkd, List.idxOf_cons_self] at hbefore
        omega
      rw [List.idxOf_cons_ne keys hke, List.idxOf_cons_ne keys hkd, Nat.succ_lt_succ_iff] at hbefore
      have he' : e ∈ keys := (List.mem_cons.mp he).resolve_left (Ne.symm hke)
      split at hp
      · exact ih hrest hp hbefore hd he'
      · next x hx =>
        have hkey : key x = k := h k List.mem_cons_self x (List.mem_of_mem_head? hx)
        cases p with
        | nil => simp [taken] at hd
        | cons y p =>
          obtain ⟨rfl, hpre⟩ := List.cons_prefix_cons.mp hp
          rw [taken_cons, if_neg (hkey ▸ hkd), Nat.zero_add] at hd
          rw [taken_cons, if_neg (hkey ▸ hke), Nat.zero_add]
          exact ih hrest hpre hbefore hd he'

/-- A prefix of the rounds is fair: it has taken `k + 1` elements of a queue only if it has taken
    as many of every earlier queue that is long enough, and `k` of every other one. -/
theorem Keyed.fair (h : Keyed key keys queue) (hnodup : keys.Nodup) {n : Nat} {p : List α}
    (hp : p <+: rounds keys n queue) {d e : κ} {k : Nat} (hd : k < taken key d p)
    (hdk : d ∈ keys) (hek : e ∈ keys) :
    (keys.idxOf e < keys.idxOf d → k < (queue e).length → k < taken key e p) ∧
      min k (queue e).length ≤ taken key e p := by
  induction n generalizing queue p k with
  | zero =>
    rw [rounds, List.prefix_nil] at hp
    simp [hp, taken] at hd
  | succ n ih =>
    have hround := h.taken_heads hnodup hdk
    rcases prefix_append_cases hp with hp | ⟨q, rfl, hq⟩
    · -- the cut is in this round, so it has at most one element of each queue
      have hle : taken key d p ≤ taken key d (heads keys queue) := taken_le_of_prefix hp
      obtain rfl : k = 0 := by omega
      refine ⟨fun hbefore hlen => ?_, by omega⟩
      exact h.taken_of_before hp hbefore hd hek (List.ne_nil_of_length_pos hlen)
    · have hround' := h.taken_heads hnodup hek
      rw [taken_append] at hd ⊢
      cases k with
      | zero => exact ⟨fun _ hlen => by omega, by omega⟩
      | succ k =>
        have hrest := ih h.tail hq (k := k) (by omega)
        rw [List.length_tail] at hrest
        refine ⟨fun hbefore hlen => ?_, ?_⟩
        · have := hrest.1 hbefore (by omega)
          omega
        · have := hrest.2
          omega

/-! ## The elements of all queues -/

omit [DecidableEq κ] in
/-- Two lists with the same elements of each key are permutations of each other. -/
theorem perm_of_filter [DecidableEq κ] {l l' : List α} (key : α → κ)
    (h : ∀ k, (l.filter fun x => key x = k) = l'.filter fun x => key x = k) : l.Perm l' := by
  classical
  rw [List.perm_iff_count]
  intro x
  have hcount : ∀ m : List α, m.count x = (m.filter fun y => key y = key x).count x := by
    intro m
    rw [List.count_filter (by simp)]
  rw [hcount l, hcount l', h]

end Keyed

end RoundRobin
