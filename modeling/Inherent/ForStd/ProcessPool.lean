import Inherent.ForStd.Run

/-!
# Processes over a shared store

Any number of sequential processes work on one shared store.  A step of one of them sees the
store and its peers (which may hold what it waits for: `none` means it has to wait) and
leaves the store and its own state changed.  A process may start at any time, and may be
interrupted at any point, before its next step takes effect or after the store has taken it
and the process has not heard of it.  This file gives the rely–guarantee rule for the runs of
such a pool: if each step of a process keeps the invariant of the store, its own invariant,
and what its peers rely on, then all of them hold in every reachable state.
-/

namespace ProcessPool

variable {σ π ι : Type*}

/-- The program the processes run: how one starts, takes a step and is interrupted. -/
structure Program (σ π ι : Type*) where
  start : ι → Option π
  advance : σ → List π → π → Option (σ × π)
  interrupt : π → π

/-- The shared store with the processes started so far. -/
structure Pool (σ π : Type*) where
  shared : σ
  procs : List π
  deriving DecidableEq

/-- What may happen next: a process starts, takes its next step, or is interrupted before it
    or after the store has taken it. -/
inductive Event (ι : Type*) where
  | start (a : ι)
  | advance (i : Nat)
  | interrupt (i : Nat)
  | lose (i : Nat)

/-- One event of the pool. -/
def step (P : Program σ π ι) (s : Pool σ π) : Event ι → Option (Pool σ π)
  | .start a => (P.start a).map fun p => { s with procs := s.procs ++ [p] }
  | .advance i =>
    s.procs[i]?.bind fun p =>
      (P.advance s.shared (s.procs.eraseIdx i) p).map fun r =>
        { shared := r.1, procs := s.procs.set i r.2 }
  | .interrupt i =>
    s.procs[i]?.map fun p => { s with procs := s.procs.set i (P.interrupt p) }
  | .lose i =>
    s.procs[i]?.bind fun p =>
      (P.advance s.shared (s.procs.eraseIdx i) p).map fun r =>
        { shared := r.1, procs := s.procs.set i (P.interrupt p) }

/-- Every process of the run starts with an input that meets `E`. -/
def StartsMeet (E : ι → Prop) (es : List (Event ι)) : Prop :=
  ∀ a, Event.start a ∈ es → E a

/-- The pool invariant made of one for the store (`G`), one for each process (`L`) and one
    for each pair of processes (`X`). -/
structure Holds (G : σ → Prop) (L : σ → π → Prop) (X : π → π → Prop) (s : Pool σ π) : Prop where
  shared : G s.shared
  each : ∀ p ∈ s.procs, L s.shared p
  pairs : s.procs.Pairwise X

/-- What one process has to guarantee, relying on the invariant. -/
structure RelyGuarantee (P : Program σ π ι) (E : ι → Prop) (G : σ → Prop) (L : σ → π → Prop)
    (X : π → π → Prop) : Prop where
  symm : ∀ p q, X p q → X q p
  start : ∀ t a p, G t → E a → P.start a = some p → L t p ∧ ∀ q, L t q → X q p
  advance : ∀ t peers p t' p', G t → L t p → (∀ q ∈ peers, L t q) → (∀ q ∈ peers, X p q) →
    P.advance t peers p = some (t', p') →
      G t' ∧ L t' p' ∧ (∀ q ∈ peers, L t' q) ∧ ∀ q ∈ peers, X p' q
  interrupt : ∀ t p, G t → L t p → L t (P.interrupt p) ∧ ∀ q, X p q → X (P.interrupt p) q
  lose : ∀ t peers p t' p', G t → L t p → P.advance t peers p = some (t', p') →
    L t' (P.interrupt p)

section

variable {P : Program σ π ι} {E : ι → Prop} {G : σ → Prop} {L : σ → π → Prop} {X : π → π → Prop}

/-- A list is, up to order, one of its items and its peers. -/
theorem perm_cons_eraseIdx {l : List π} {i : Nat} {p : π} (h : l[i]? = some p) :
    l.Perm (p :: l.eraseIdx i) := by
  obtain ⟨hlt, rfl⟩ := List.getElem?_eq_some_iff.mp h
  exact (List.getElem_cons_eraseIdx_perm hlt).symm

/-- Replacing an item leaves its peers. -/
theorem set_perm_cons_eraseIdx {l : List π} {i : Nat} {p : π} (h : l[i]? = some p) (q : π) :
    (l.set i q).Perm (q :: l.eraseIdx i) := by
  obtain ⟨hlt, -⟩ := List.getElem?_eq_some_iff.mp h
  exact List.set_perm_cons_eraseIdx hlt q

/-- The pool invariant seen from one process: its own part, and its peers'. -/
theorem holds_iff_of_perm (hsymm : ∀ p q, X p q → X q p) {s : Pool σ π} {p : π} {peers : List π}
    (hperm : s.procs.Perm (p :: peers)) :
    Holds G L X s ↔ G s.shared ∧ L s.shared p ∧ (∀ q ∈ peers, L s.shared q) ∧
      (∀ q ∈ peers, X p q) ∧ peers.Pairwise X := by
  have hpairs : s.procs.Pairwise X ↔ (∀ q ∈ peers, X p q) ∧ peers.Pairwise X := by
    rw [hperm.pairwise_iff (fun {a b} => hsymm a b), List.pairwise_cons]
  have heach : (∀ q ∈ s.procs, L s.shared q) ↔ L s.shared p ∧ ∀ q ∈ peers, L s.shared q := by
    simp only [hperm.mem_iff, List.forall_mem_cons]
  constructor
  · intro h
    exact ⟨h.shared, (heach.mp h.each).1, (heach.mp h.each).2, hpairs.mp h.pairs⟩
  · rintro ⟨hG, hLp, hLq, hX⟩
    exact ⟨hG, heach.mpr ⟨hLp, hLq⟩, hpairs.mpr hX⟩

/-- One event keeps the pool invariant. -/
theorem step_holds (hrg : RelyGuarantee P E G L X) {s s' : Pool σ π} {e : Event ι}
    (hs : Holds G L X s) (he : ∀ a, e = .start a → E a) (hstep : step P s e = some s') :
    Holds G L X s' := by
  cases e with
  | start a =>
    obtain ⟨p, hp, rfl⟩ := Option.map_eq_some_iff.mp hstep
    obtain ⟨hLp, hX⟩ := hrg.start s.shared a p hs.shared (he a rfl) hp
    have hperm : (s.procs ++ [p]).Perm (p :: s.procs) := List.perm_append_singleton p s.procs
    exact (holds_iff_of_perm hrg.symm hperm).mpr
      ⟨hs.shared, hLp, hs.each, fun q hq => hrg.symm q p (hX q (hs.each q hq)), hs.pairs⟩
  | advance i =>
    obtain ⟨p, hi, hmap⟩ := Option.bind_eq_some_iff.mp hstep
    obtain ⟨⟨t', p'⟩, hadv, rfl⟩ := Option.map_eq_some_iff.mp hmap
    obtain ⟨hG, hLp, hLq, hXp, hXq⟩ :=
      (holds_iff_of_perm hrg.symm (perm_cons_eraseIdx hi)).mp hs
    obtain ⟨hG', hLp', hLq', hXp'⟩ := hrg.advance _ _ _ _ _ hG hLp hLq hXp hadv
    exact (holds_iff_of_perm hrg.symm (set_perm_cons_eraseIdx hi p')).mpr
      ⟨hG', hLp', hLq', hXp', hXq⟩
  | interrupt i =>
    obtain ⟨p, hi, rfl⟩ := Option.map_eq_some_iff.mp hstep
    obtain ⟨hG, hLp, hLq, hXp, hXq⟩ :=
      (holds_iff_of_perm hrg.symm (perm_cons_eraseIdx hi)).mp hs
    obtain ⟨hLp', hXp'⟩ := hrg.interrupt s.shared p hG hLp
    exact (holds_iff_of_perm hrg.symm (set_perm_cons_eraseIdx hi _)).mpr
      ⟨hG, hLp', hLq, fun q hq => hXp' q (hXp q hq), hXq⟩
  | lose i =>
    obtain ⟨p, hi, hmap⟩ := Option.bind_eq_some_iff.mp hstep
    obtain ⟨⟨t', p'⟩, hadv, rfl⟩ := Option.map_eq_some_iff.mp hmap
    obtain ⟨hG, hLp, hLq, hXp, hXq⟩ :=
      (holds_iff_of_perm hrg.symm (perm_cons_eraseIdx hi)).mp hs
    -- the store and the peers see the step, the process does not
    obtain ⟨hG', -, hLq', -⟩ := hrg.advance _ _ _ _ _ hG hLp hLq hXp hadv
    have hXp' := (hrg.interrupt s.shared p hG hLp).2
    exact (holds_iff_of_perm hrg.symm (set_perm_cons_eraseIdx hi _)).mpr
      ⟨hG', hrg.lose _ _ _ _ _ hG hLp hadv, hLq', fun q hq => hXp' q (hXp q hq), hXq⟩

/-- A run keeps the pool invariant. -/
theorem exec_holds (hrg : RelyGuarantee P E G L X) {s s' : Pool σ π} {es : List (Event ι)}
    (hs : Holds G L X s) (hes : StartsMeet E es)
    (hrun : EventRun.exec (step P) s es = some s') : Holds G L X s' :=
  EventRun.exec_invariant_of_allSteps (C := fun _ e => ∀ a, e = .start a → E a)
    (fun _ _ _ hs he hstep => step_holds hrg hs he hstep) hs
    (EventRun.allSteps_of_forall_mem (fun e he a ha => hes a (by rwa [← ha])) s) hrun

/-- A pool without processes holds the invariant as soon as its store does. -/
theorem holds_of_no_procs {t : σ} (hG : G t) : Holds G L X (⟨t, []⟩ : Pool σ π) :=
  ⟨hG, fun _ hp => absurd hp List.not_mem_nil, List.Pairwise.nil⟩

/-- What has to be shown to add `G'` and `L'` to an invariant that is guaranteed already. -/
structure Extends (P : Program σ π ι) (E : ι → Prop) (G : σ → Prop) (L : σ → π → Prop)
    (X : π → π → Prop) (G' : σ → Prop) (L' : σ → π → Prop) : Prop where
  start : ∀ t a p, G' t → E a → P.start a = some p → L' t p
  advance : ∀ t peers p t' p', G t → G' t → L t p → L' t p → (∀ q ∈ peers, X p q) →
    P.advance t peers p = some (t', p') → G' t' ∧ L' t' p' ∧ ∀ q ∈ peers, L' t q → L' t' q
  interrupt : ∀ t p, L t p → L' t p → L' t (P.interrupt p)
  lose : ∀ t peers p t' p', G t → G' t → L t p → L' t p → P.advance t peers p = some (t', p') →
    L' t' (P.interrupt p)

/-- The invariant with its extension is guaranteed. -/
theorem RelyGuarantee.extend {E' : ι → Prop} {G' : σ → Prop} {L' : σ → π → Prop}
    (hrg : RelyGuarantee P E G L X) (hE : ∀ a, E' a → E a) (hext : Extends P E' G L X G' L') :
    RelyGuarantee P E' (fun t => G t ∧ G' t) (fun t p => L t p ∧ L' t p) X where
  symm := hrg.symm
  start t a p hG ha hp := by
    obtain ⟨hLp, hX⟩ := hrg.start t a p hG.1 (hE a ha) hp
    exact ⟨⟨hLp, hext.start t a p hG.2 ha hp⟩, fun q hq => hX q hq.1⟩
  advance t peers p t' p' hG hLp hLq hX hadv := by
    obtain ⟨hG₁, hLp₁, hLq₁, hX₁⟩ :=
      hrg.advance t peers p t' p' hG.1 hLp.1 (fun q hq => (hLq q hq).1) hX hadv
    obtain ⟨hG₂, hLp₂, hLq₂⟩ := hext.advance t peers p t' p' hG.1 hG.2 hLp.1 hLp.2 hX hadv
    exact ⟨⟨hG₁, hG₂⟩, ⟨hLp₁, hLp₂⟩, fun q hq => ⟨hLq₁ q hq, hLq₂ q hq (hLq q hq).2⟩, hX₁⟩
  interrupt t p hG hLp := by
    obtain ⟨hLp₁, hX₁⟩ := hrg.interrupt t p hG.1 hLp.1
    exact ⟨⟨hLp₁, hext.interrupt t p hLp.1 hLp.2⟩, hX₁⟩
  lose t peers p t' p' hG hLp hadv :=
    ⟨hrg.lose t peers p t' p' hG.1 hLp.1 hadv,
      hext.lose t peers p t' p' hG.1 hG.2 hLp.1 hLp.2 hadv⟩

end

/-! ## A process alone -/

/-- The steps of one process while its peers take none. -/
def Program.alone (P : Program σ π ι) (peers : List π) : Nat → σ → π → Option (σ × π)
  | 0, t, p => some (t, p)
  | n + 1, t, p => (P.advance t peers p).bind fun r => P.alone peers n r.1 r.2

section

variable {P : Program σ π ι} {peers : List π}

/-- One step, and the steps after it. -/
theorem alone_succ {n : Nat} {t t' : σ} {p p' : π} {r : σ × π}
    (hadv : P.advance t peers p = some (t', p')) (hrest : P.alone peers n t' p' = some r) :
    P.alone peers (n + 1) t p = some r := by
  rw [Program.alone, hadv, Option.bind_some, hrest]

/-- Steps one after the other. -/
theorem alone_add {m n : Nat} {t t' : σ} {p p' : π} {r : σ × π}
    (hm : P.alone peers m t p = some (t', p')) (hn : P.alone peers n t' p' = some r) :
    P.alone peers (m + n) t p = some r := by
  induction m generalizing t p with
  | zero =>
    simp only [Program.alone, Option.some.injEq, Prod.mk.injEq] at hm
    rw [Nat.zero_add, hm.1, hm.2, hn]
  | succ m ih =>
    obtain ⟨⟨u, q⟩, hadv, hrest⟩ := Option.bind_eq_some_iff.mp hm
    rw [Nat.add_right_comm]
    exact alone_succ hadv (ih hrest)

/-- The steps of one process alone, as a run of the pool. -/
theorem exec_replicate_advance {n i : Nat} {s : Pool σ π} {p p' : π} {t' : σ}
    (hi : s.procs[i]? = some p)
    (halone : P.alone (s.procs.eraseIdx i) n s.shared p = some (t', p')) :
    EventRun.exec (step P) s (List.replicate n (.advance i)) =
      some { shared := t', procs := s.procs.set i p' } := by
  induction n generalizing s p with
  | zero =>
    simp only [Program.alone, Option.some.injEq, Prod.mk.injEq] at halone
    obtain ⟨hlt, hp⟩ := List.getElem?_eq_some_iff.mp hi
    have hset : s.procs.set i p' = s.procs := by
      rw [← halone.2, ← hp, List.set_getElem_self]
    rw [List.replicate_zero, EventRun.exec_nil, hset, ← halone.1]
  | succ n ih =>
    obtain ⟨⟨u, q⟩, hadv, hrest⟩ := Option.bind_eq_some_iff.mp halone
    obtain ⟨hlt, -⟩ := List.getElem?_eq_some_iff.mp hi
    have hstep : step P s (.advance i) = some { shared := u, procs := s.procs.set i q } := by
      simp only [step, hi, Option.bind_some, hadv, Option.map_some]
    have hself : (s.procs.set i q)[i]? = some q := List.getElem?_set_self hlt
    have hpeers : (s.procs.set i q).eraseIdx i = s.procs.eraseIdx i := by
      rw [List.eraseIdx_set_eq]
    rw [List.replicate_succ, EventRun.exec_cons_eq_some]
    refine ⟨_, hstep, ?_⟩
    rw [ih hself (by rwa [hpeers]), List.set_set]

end

end ProcessPool
