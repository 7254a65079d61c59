import Mathlib

/-!
# Outline counters

The entries of an outline have levels, and each level a counter.  An entry advances the counter of
its level, or restarts it at a value of its own, and drops the counters of the deeper levels.  A
history lists the entries with the last one first.
-/

namespace OutlineCounter

variable {L : Type*} [LinearOrder L]

/-- An entry with its level, and the value at which it restarts the counter of the level. -/
structure Entry (L : Type*) where
  level : L
  restart : Option ℤ

/-- The counters after one more entry. -/
def advance (start : L → ℤ) (counters : L → Option ℤ) (e : Entry L) (l : L) : Option ℤ :=
  if l = e.level then some (e.restart.getD ((counters l).getD (start l - 1) + 1))
  else if e.level < l then none
  else counters l

/-- The counters after a history. -/
def after (start : L → ℤ) : List (Entry L) → L → Option ℤ
  | [] => fun _ => none
  | e :: past => advance start (after start past) e

/-- The entries at a level since the last entry at a shallower level. -/
def since (l : L) (past : List (Entry L)) : List (Entry L) :=
  (past.takeWhile fun e => l ≤ e.level).filter fun e => e.level = l

/-- The value of a counter that starts at `start`, from the entries that have advanced it. -/
def value (start : ℤ) : List (Entry L) → Option ℤ
  | [] => none
  | e :: older => some (e.restart.getD ((value start older).getD (start - 1) + 1))

variable {start : L → ℤ}

/-- A counter is determined by the entries at its level since the last shallower entry. -/
theorem after_eq_value (past : List (Entry L)) (l : L) :
    after start past l = value (start l) (since l past) := by
  induction past with
  | nil => rfl
  | cons e past ih =>
    rw [after, advance]
    rcases lt_trichotomy e.level l with hlt | heq | hgt
    · rw [if_neg hlt.ne', if_pos hlt, since, List.takeWhile_cons_of_neg (by simpa using hlt)]
      rfl
    · subst heq
      rw [if_pos rfl, since, List.takeWhile_cons_of_pos (by simp),
        List.filter_cons_of_pos (by simp), value, ih]
      rfl
    · rw [if_neg hgt.ne, if_neg hgt.not_gt, since, List.takeWhile_cons_of_pos (by simpa using hgt.le),
        List.filter_cons_of_neg (by simpa using hgt.ne'), ih]
      rfl

/-- Without a restart the counter counts the entries from its start on. -/
theorem value_eq_start_add {s : ℤ} {e : Entry L} {older : List (Entry L)}
    (hrestart : ∀ d ∈ e :: older, d.restart = none) :
    value s (e :: older) = some (s + older.length) := by
  induction older generalizing e with
  | nil => simp [value, hrestart e List.mem_cons_self]
  | cons d older ih =>
    rw [value, hrestart e List.mem_cons_self, ih fun c hc => hrestart c (List.mem_cons_of_mem e hc)]
    simp only [Option.getD_none, Option.getD_some, List.length_cons, Nat.cast_add, Nat.cast_one]
    rw [add_assoc]

/-- Behind a restart the counter counts the entries from the restart's value on. -/
theorem value_eq_restart_add {s v : ℤ} {newer : List (Entry L)} {e : Entry L}
    {older : List (Entry L)} (hnewer : ∀ d ∈ newer, d.restart = none) (he : e.restart = some v) :
    value s (newer ++ e :: older) = some (v + newer.length) := by
  induction newer with
  | nil => simp [value, he]
  | cons d newer ih =>
    rw [List.cons_append, value, hnewer d List.mem_cons_self,
      ih fun c hc => hnewer c (List.mem_cons_of_mem d hc)]
    simp only [Option.getD_none, Option.getD_some, List.length_cons, Nat.cast_add, Nat.cast_one]
    rw [add_assoc]

/-! ## Nested outlines -/

section

variable {start : ℤ → ℤ}

/-- The level of the last entry; `-1` before the first one. -/
def depth : List (Entry ℤ) → ℤ
  | [] => -1
  | e :: _ => e.level

/-- The levels are not negative, and an entry is deeper than the one before it by at most one. -/
def Nested : List (Entry ℤ) → Prop
  | [] => True
  | e :: past => 0 ≤ e.level ∧ e.level ≤ depth past + 1 ∧ Nested past

/-- The counters of the levels down to that of the last entry. -/
def path (start : ℤ → ℤ) (past : List (Entry ℤ)) : List ℤ :=
  (List.range (depth past + 1).toNat).map fun i : ℕ => (after start past i).getD 0

/-- In a nested outline the counters down to the last entry are there. -/
theorem after_isSome_iff {past : List (Entry ℤ)} (h : Nested past) (l : ℤ) :
    (after start past l).isSome ↔ 0 ≤ l ∧ l ≤ depth past := by
  induction past generalizing l with
  | nil =>
    simp only [after, depth, Option.isSome_none, Bool.false_eq_true, false_iff]
    omega
  | cons e past ih =>
    obtain ⟨hlevel, hdepth, hpast⟩ := h
    rw [after, advance, depth]
    rcases lt_trichotomy l e.level with hlt | rfl | hgt
    · rw [if_neg hlt.ne, if_neg hlt.not_gt, ih hpast]
      omega
    · rw [if_pos rfl]
      simpa using hlevel
    · rw [if_neg hgt.ne', if_pos hgt]
      simp only [Option.isSome_none, Bool.false_eq_true, false_iff]
      omega

/-- A nested entry that restarts nothing makes the path larger. -/
theorem path_lt_path_cons {e : Entry ℤ} {past : List (Entry ℤ)} (h : Nested (e :: past))
    (hrestart : e.restart = none) : path start past < path start (e :: past) := by
  obtain ⟨hlevel, hdepth, hpast⟩ := h
  obtain ⟨m, hm⟩ := Int.eq_ofNat_of_zero_le hlevel
  obtain ⟨r, hr⟩ : ∃ r, (depth past + 1).toNat = m + r :=
    ⟨(depth past + 1).toNat - m, by omega⟩
  have hsame : (List.range m).map (fun i : ℕ => (after start (e :: past) i).getD 0) =
      (List.range m).map fun i : ℕ => (after start past i).getD 0 := by
    apply List.map_congr_left
    intro i hi
    have hi := List.mem_range.mp hi
    rw [after, advance, if_neg (by omega), if_neg (by omega)]
  have hlast : (depth (e :: past) + 1).toNat = m + 1 := by
    rw [depth]
    omega
  rw [path, path, hr, hlast, List.range_add, List.range_succ, List.map_append, List.map_append,
    hsame]
  apply List.append_left_lt
  cases r with
  | zero => exact List.nil_lt_cons _ _
  | succ r =>
    -- the counter of the entry's level is there, and grows by one
    have hsome : (after start past m).isSome := (after_isSome_iff hpast m).mpr (by omega)
    obtain ⟨count, hcount⟩ := Option.isSome_iff_exists.mp hsome
    have hnext : after start (e :: past) m = some (count + 1) := by
      rw [after, advance, if_pos hm.symm, hrestart, hcount]
      rfl
    rw [List.range_succ_eq_map, List.map_cons, List.map_cons, List.map_singleton, Nat.add_zero,
      hcount, hnext, List.cons_lt_cons_iff]
    exact .inl (Int.lt_succ count)

end

end OutlineCounter
