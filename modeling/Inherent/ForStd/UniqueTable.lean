import Mathlib

/-!
# Tables with a unique key

A table of rows in insertion order under one unique index, with the SQL
operations on it: `INSERT ... ON CONFLICT DO NOTHING` of a list of rows, which
reports how many rows it really inserted, and `DELETE` by key.  The uniqueness of
the index is a field of the table, so no operation can build a table that breaks
it.
-/

/-- Rows in insertion order, at most one for each key. -/
structure UniqueTable {ρ κ : Type*} (key : ρ → κ) where
  rows : List ρ
  unique : (rows.map key).Nodup

namespace UniqueTable

variable {ρ κ : Type*} {key : ρ → κ}

instance [DecidableEq ρ] : DecidableEq (UniqueTable key) := fun t u =>
  decidable_of_iff (t.rows = u.rows) (by cases t; cases u; simp)

/-- The table without rows. -/
def empty : UniqueTable key := ⟨[], by simp⟩

@[simp] theorem rows_empty : (empty : UniqueTable key).rows = [] := rfl

/-- Number of rows. -/
def size (t : UniqueTable key) : Nat := t.rows.length

/-- Some row holds the key `k`. -/
def Holds (t : UniqueTable key) (k : κ) : Prop := k ∈ t.rows.map key

theorem holds_iff {t : UniqueTable key} {k : κ} : t.Holds k ↔ ∃ r ∈ t.rows, key r = k := by
  simp only [Holds, List.mem_map]

theorem not_holds_iff {t : UniqueTable key} {k : κ} : ¬ t.Holds k ↔ ∀ r ∈ t.rows, key r ≠ k := by
  simp only [holds_iff, not_exists, not_and, ne_eq]

/-- A table holds at most one row for each key. -/
theorem eq_of_key_eq {t : UniqueTable key} {r r' : ρ} (hr : r ∈ t.rows) (hr' : r' ∈ t.rows)
    (h : key r = key r') : r = r' :=
  List.inj_on_of_nodup_map t.unique hr hr' h

/-- `UPDATE` of every row by a function that keeps its key. -/
def update (t : UniqueTable key) (f : ρ → ρ) (hf : ∀ r, key (f r) = key r) : UniqueTable key :=
  ⟨t.rows.map f, by
    have hkey : key ∘ f = key := funext hf
    rw [List.map_map, hkey]
    exact t.unique⟩

/-- `DELETE` of the rows that fail the condition. -/
def filter (t : UniqueTable key) (p : ρ → Bool) : UniqueTable key :=
  ⟨t.rows.filter p, t.unique.sublist ((List.filter_sublist (l := t.rows)).map key)⟩

theorem mem_filter {t : UniqueTable key} {p : ρ → Bool} {r : ρ} :
    r ∈ (t.filter p).rows ↔ r ∈ t.rows ∧ p r = true :=
  List.mem_filter

/-- A condition on the keys deletes the keys that fail it. -/
theorem holds_filter_key (t : UniqueTable key) (p : κ → Prop) [DecidablePred p] {k : κ} :
    (t.filter fun r => p (key r)).Holds k ↔ t.Holds k ∧ p k := by
  simp only [holds_iff, mem_filter, decide_eq_true_eq]
  constructor
  · intro h
    obtain ⟨r, ⟨hr, hp⟩, rfl⟩ := h
    exact ⟨⟨r, hr, rfl⟩, hp⟩
  · intro h
    obtain ⟨⟨r, hr, rfl⟩, hp⟩ := h
    exact ⟨r, ⟨hr, hp⟩, rfl⟩

section

variable [DecidableEq κ]

instance (t : UniqueTable key) (k : κ) : Decidable (t.Holds k) :=
  inferInstanceAs (Decidable (k ∈ t.rows.map key))

/-- `INSERT` of one row, `ON CONFLICT DO NOTHING`. -/
def insertNew (t : UniqueTable key) (r : ρ) : UniqueTable key :=
  if h : t.Holds (key r) then t
  else ⟨t.rows ++ [r], by
    rw [List.map_append, List.map_singleton]
    exact t.unique.append (List.nodup_singleton _) (by simpa [List.Disjoint, Holds] using h)⟩

/-- `INSERT` of the rows in order, `ON CONFLICT DO NOTHING`. -/
def insertAll (t : UniqueTable key) (rs : List ρ) : UniqueTable key := rs.foldl insertNew t

/-- The row count that `insertAll` reports: the rows it really inserted. -/
def inserted (t : UniqueTable key) (rs : List ρ) : Nat := (t.insertAll rs).size - t.size

/-- Write of one row over the row with its key, if there is one. -/
def put (t : UniqueTable key) (r : ρ) : UniqueTable key :=
  ⟨t.rows.filter (fun r' => key r' ≠ key r) ++ [r], by
    rw [List.map_append, List.map_singleton]
    refine (t.unique.sublist ((List.filter_sublist (l := t.rows)).map key)).append
      (List.nodup_singleton _) ?_
    intro k hk hk'
    obtain ⟨r', hr', rfl⟩ := List.mem_map.mp hk
    exact of_decide_eq_true (List.mem_filter.mp hr').2 (List.mem_singleton.mp hk')⟩

/-- Write of the rows in order, each over the row with its key. -/
def putAll (t : UniqueTable key) (rs : List ρ) : UniqueTable key := rs.foldl put t

/-- `DELETE` of the row with key `k`. -/
def erase (t : UniqueTable key) (k : κ) : UniqueTable key :=
  ⟨t.rows.filter fun r => key r ≠ k,
    t.unique.sublist ((List.filter_sublist (l := t.rows)).map key)⟩

/-- The row with key `k`. -/
def find? (t : UniqueTable key) (k : κ) : Option ρ := t.rows.find? fun r => key r = k

/-! ### Inserting -/

theorem insertNew_of_holds {t : UniqueTable key} {r : ρ} (h : t.Holds (key r)) :
    t.insertNew r = t := dif_pos h

theorem rows_insertNew_of_not_holds {t : UniqueTable key} {r : ρ} (h : ¬ t.Holds (key r)) :
    (t.insertNew r).rows = t.rows ++ [r] := by
  simp only [insertNew, dif_neg h]

@[simp] theorem insertAll_nil (t : UniqueTable key) : t.insertAll [] = t := rfl

@[simp] theorem insertAll_cons (t : UniqueTable key) (r : ρ) (rs : List ρ) :
    t.insertAll (r :: rs) = (t.insertNew r).insertAll rs := rfl

/-- The rows of a table come first in the table after an insert. -/
theorem rows_prefix_insertNew (t : UniqueTable key) (r : ρ) : t.rows <+: (t.insertNew r).rows := by
  by_cases h : t.Holds (key r)
  · have hrows : (t.insertNew r).rows = t.rows := congrArg rows (insertNew_of_holds h)
    exact hrows.symm ▸ List.prefix_rfl
  · rw [rows_insertNew_of_not_holds h]
    exact List.prefix_append _ _

theorem rows_prefix_insertAll (t : UniqueTable key) (rs : List ρ) :
    t.rows <+: (t.insertAll rs).rows := by
  induction rs generalizing t with
  | nil => exact List.prefix_rfl
  | cons r rs ih => exact (rows_prefix_insertNew t r).trans (ih (t.insertNew r))

/-- An insert never removes a row. -/
theorem mem_insertAll_of_mem {t : UniqueTable key} {r : ρ} (rs : List ρ) (h : r ∈ t.rows) :
    r ∈ (t.insertAll rs).rows :=
  (rows_prefix_insertAll t rs).subset h

theorem size_le_insertAll (t : UniqueTable key) (rs : List ρ) : t.size ≤ (t.insertAll rs).size :=
  (rows_prefix_insertAll t rs).length_le

/-- The table grows by the row count the insert reports. -/
theorem size_insertAll (t : UniqueTable key) (rs : List ρ) :
    (t.insertAll rs).size = t.size + t.inserted rs := by
  have := size_le_insertAll t rs
  simp only [inserted]; omega

/-- Every row after an insert was there before or is one of the inserted rows. -/
theorem mem_of_mem_insertAll {t : UniqueTable key} {r : ρ} {rs : List ρ}
    (h : r ∈ (t.insertAll rs).rows) : r ∈ t.rows ∨ r ∈ rs := by
  induction rs generalizing t with
  | nil => exact Or.inl h
  | cons r' rs ih =>
    rcases ih h with h | h
    · by_cases hr : t.Holds (key r')
      · exact Or.inl (insertNew_of_holds hr ▸ h)
      · rw [rows_insertNew_of_not_holds hr, List.mem_append, List.mem_singleton] at h
        rcases h with h | rfl
        · exact Or.inl h
        · exact Or.inr List.mem_cons_self
    · exact Or.inr (List.mem_cons_of_mem _ h)

/-- After an insert every one of the keys is held. -/
theorem holds_insertAll {t : UniqueTable key} {r : ρ} {rs : List ρ} (h : r ∈ rs) :
    (t.insertAll rs).Holds (key r) := by
  induction rs generalizing t with
  | nil => exact absurd h List.not_mem_nil
  | cons r' rs ih =>
    rcases List.mem_cons.mp h with rfl | h
    · have hr : (t.insertNew r).Holds (key r) := by
        by_cases hr : t.Holds (key r)
        · rwa [insertNew_of_holds hr]
        · simp [Holds, rows_insertNew_of_not_holds hr]
      obtain ⟨r', hr', hk⟩ := holds_iff.mp hr
      exact holds_iff.mpr ⟨r', mem_insertAll_of_mem rs hr', hk⟩
    · exact ih h

/-- A row of a table after an insert was there, or is the new one. -/
theorem mem_of_mem_insertNew {t : UniqueTable key} {r r' : ρ} (h : r ∈ (t.insertNew r').rows) :
    r ∈ t.rows ∨ r = r' := by
  by_cases hr' : t.Holds (key r')
  · rw [insertNew_of_holds hr'] at h
    exact Or.inl h
  · rw [rows_insertNew_of_not_holds hr', List.mem_append, List.mem_singleton] at h
    exact h

/-- Inserting a row takes its key and no other. -/
theorem holds_insertNew {t : UniqueTable key} {r : ρ} {k : κ} :
    (t.insertNew r).Holds k ↔ t.Holds k ∨ k = key r := by
  by_cases h : t.Holds (key r)
  · rw [insertNew_of_holds h]
    exact ⟨Or.inl, fun hk => hk.elim id fun e => e ▸ h⟩
  · simp only [Holds, rows_insertNew_of_not_holds h, List.map_append, List.mem_append,
      List.map_singleton, List.mem_singleton]

/-- Of rows with distinct keys an insert appends those whose key is free, in order. -/
theorem rows_insertAll {t : UniqueTable key} {rs : List ρ} (hnd : (rs.map key).Nodup) :
    (t.insertAll rs).rows = t.rows ++ rs.filter fun r => ¬ t.Holds (key r) := by
  induction rs generalizing t with
  | nil => simp
  | cons r rs ih =>
    rw [List.map_cons, List.nodup_cons] at hnd
    -- the keys of the later rows are free after this insert exactly when they were before
    have hrest : rs.filter (fun r' => ¬ (t.insertNew r).Holds (key r')) =
        rs.filter fun r' => ¬ t.Holds (key r') := by
      apply List.filter_congr
      intro r' hr'
      have hne : key r' ≠ key r := fun h => hnd.1 (h ▸ List.mem_map_of_mem hr')
      simp only [holds_insertNew, hne, or_false]
    rw [insertAll_cons, ih hnd.2, hrest]
    by_cases h : t.Holds (key r)
    · rw [insertNew_of_holds h, List.filter_cons_of_neg (by simpa using h)]
    · rw [rows_insertNew_of_not_holds h, List.filter_cons_of_pos (by simpa using h),
        List.append_assoc, List.singleton_append]

/-- Rows whose keys are free and distinct are all inserted, in order. -/
theorem rows_insertAll_of_free {t : UniqueTable key} {rs : List ρ} (hnd : (rs.map key).Nodup)
    (hfree : ∀ r ∈ rs, ¬ t.Holds (key r)) : (t.insertAll rs).rows = t.rows ++ rs := by
  rw [rows_insertAll hnd, List.filter_eq_self.mpr]
  intro r hr
  simpa using hfree r hr

theorem inserted_of_free {t : UniqueTable key} {rs : List ρ} (hnd : (rs.map key).Nodup)
    (hfree : ∀ r ∈ rs, ¬ t.Holds (key r)) : t.inserted rs = rs.length := by
  simp [inserted, size, rows_insertAll_of_free hnd hfree]

/-- Rows whose keys are all taken change nothing. -/
theorem insertAll_of_taken {t : UniqueTable key} {rs : List ρ}
    (htaken : ∀ r ∈ rs, t.Holds (key r)) : t.insertAll rs = t := by
  induction rs with
  | nil => rfl
  | cons r rs ih =>
    rw [insertAll_cons, insertNew_of_holds (htaken r List.mem_cons_self)]
    exact ih fun r' hr' => htaken r' (List.mem_cons_of_mem _ hr')

theorem inserted_of_taken {t : UniqueTable key} {rs : List ρ}
    (htaken : ∀ r ∈ rs, t.Holds (key r)) : t.inserted rs = 0 := by
  simp [inserted, insertAll_of_taken htaken]

/-! ### Writing over -/

theorem mem_put {t : UniqueTable key} {r r' : ρ} :
    r' ∈ (t.put r).rows ↔ r' = r ∨ r' ∈ t.rows ∧ key r' ≠ key r := by
  simp only [put, List.mem_append, List.mem_filter, List.mem_singleton, decide_eq_true_eq]
  rw [or_comm]

theorem holds_put {t : UniqueTable key} {r : ρ} {k : κ} :
    (t.put r).Holds k ↔ t.Holds k ∨ k = key r := by
  simp only [holds_iff, mem_put]
  constructor
  · rintro ⟨r', rfl | ⟨hr', -⟩, rfl⟩
    · exact Or.inr rfl
    · exact Or.inl ⟨r', hr', rfl⟩
  · rintro (⟨r', hr', rfl⟩ | rfl)
    · by_cases h : key r' = key r
      · exact ⟨r, Or.inl rfl, h.symm⟩
      · exact ⟨r', Or.inr ⟨hr', h⟩, rfl⟩
    · exact ⟨r, Or.inl rfl, rfl⟩

/-- Every key that was held or is written is held. -/
theorem holds_putAll {t : UniqueTable key} {rs : List ρ} {k : κ} :
    (t.putAll rs).Holds k ↔ t.Holds k ∨ k ∈ rs.map key := by
  induction rs generalizing t with
  | nil => simp [putAll]
  | cons r rs ih =>
    have hstep : (t.putAll (r :: rs)).Holds k ↔ (t.put r).Holds k ∨ k ∈ rs.map key := ih
    rw [hstep, holds_put, List.map_cons, List.mem_cons, or_assoc]

/-- A row of a written key is one of the written rows. -/
theorem mem_of_mem_putAll {t : UniqueTable key} {rs : List ρ} {r : ρ}
    (h : r ∈ (t.putAll rs).rows) : r ∈ rs ∨ r ∈ t.rows ∧ key r ∉ rs.map key := by
  induction rs generalizing t with
  | nil => exact Or.inr ⟨h, List.not_mem_nil⟩
  | cons r' rs ih =>
    rcases ih (t := t.put r') h with h | ⟨h, hkey⟩
    · exact Or.inl (List.mem_cons_of_mem _ h)
    · rcases mem_put.mp h with rfl | ⟨h, hne⟩
      · exact Or.inl List.mem_cons_self
      · refine Or.inr ⟨h, ?_⟩
        rw [List.map_cons, List.mem_cons, not_or]
        exact ⟨hne, hkey⟩

/-- A write of rows leaves the rows under the other keys. -/
theorem mem_putAll_of_not_mem {t : UniqueTable key} {rs : List ρ} {r : ρ}
    (h : key r ∉ rs.map key) : r ∈ (t.putAll rs).rows ↔ r ∈ t.rows := by
  induction rs generalizing t with
  | nil => exact Iff.rfl
  | cons r' rs ih =>
    rw [List.map_cons, List.mem_cons, not_or] at h
    have hrest : r ∈ (t.putAll (r' :: rs)).rows ↔ r ∈ (t.put r').rows := ih h.2
    have hne : r ≠ r' := fun heq => h.1 (congrArg key heq)
    simp only [hrest, mem_put, hne, false_or, h.1, ne_eq, not_false_eq_true, and_true]

/-- Of rows with distinct keys a write leaves all, and the rows under the other keys. -/
theorem mem_putAll {t : UniqueTable key} {rs : List ρ} (hnd : (rs.map key).Nodup) {r : ρ} :
    r ∈ (t.putAll rs).rows ↔ r ∈ rs ∨ r ∈ t.rows ∧ key r ∉ rs.map key := by
  constructor
  · exact mem_of_mem_putAll
  · rintro (hr | ⟨hr, hkey⟩)
    · have hkey := List.mem_map_of_mem (f := key) hr
      obtain ⟨r', hr', heq⟩ := holds_iff.mp (holds_putAll.mpr (Or.inr hkey) :
        (t.putAll rs).Holds (key r))
      -- the row under the key is one of the written rows, and so is this one
      rcases mem_of_mem_putAll hr' with hmem | ⟨-, hfree⟩
      · obtain rfl : r' = r := List.inj_on_of_nodup_map hnd hmem hr heq
        exact hr'
      · exact absurd (heq ▸ hkey) hfree
    · exact (mem_putAll_of_not_mem hkey).mpr hr

/-! ### Deleting -/

theorem mem_erase {t : UniqueTable key} {k : κ} {r : ρ} :
    r ∈ (t.erase k).rows ↔ r ∈ t.rows ∧ key r ≠ k := by
  simp only [erase, List.mem_filter, decide_eq_true_eq]

/-- Deleting a key that is held removes one row. -/
theorem size_erase {t : UniqueTable key} {k : κ} (h : t.Holds k) :
    (t.erase k).size + 1 = t.size := by
  obtain ⟨r, hr, rfl⟩ := holds_iff.mp h
  have hcount : t.rows.countP (fun r' => key r' = key r) = 1 := by
    have h1 := List.count_eq_one_of_mem t.unique (List.mem_map_of_mem hr)
    rw [List.count, List.countP_map] at h1
    rw [← h1]
    exact List.countP_congr fun r' _ => by simp
  have hlen := List.length_eq_countP_add_countP (fun r' => decide (key r' = key r)) (l := t.rows)
  have hfilter : (t.erase (key r)).size = t.rows.countP (fun r' => ¬ (key r' = key r)) := by
    simp only [erase, size, List.countP_eq_length_filter, ne_eq]
  simp only [hcount, decide_eq_true_eq] at hlen
  rw [hfilter, size]
  omega

theorem find?_eq_some {t : UniqueTable key} {k : κ} {r : ρ} :
    t.find? k = some r ↔ r ∈ t.rows ∧ key r = k := by
  constructor
  · intro h
    exact ⟨List.mem_of_find?_eq_some h, by simpa using List.find?_some h⟩
  · rintro ⟨hr, rfl⟩
    obtain ⟨r', hr'⟩ := Option.isSome_iff_exists.mp
      (List.find?_isSome.mpr ⟨r, hr, by simp⟩ : (t.rows.find? fun r' => key r' = key r).isSome)
    have hk : key r' = key r := by simpa using List.find?_some hr'
    rw [find?, hr', eq_of_key_eq (List.mem_of_find?_eq_some hr') hr hk]

theorem find?_eq_none {t : UniqueTable key} {k : κ} : t.find? k = none ↔ ¬ t.Holds k := by
  simp [find?, List.find?_eq_none, not_holds_iff]

/-- A key that some row holds is found. -/
theorem exists_find? {t : UniqueTable key} {k : κ} (h : t.Holds k) : ∃ r, t.find? k = some r := by
  apply Option.ne_none_iff_exists'.mp
  intro hnone
  exact find?_eq_none.mp hnone h

/-- Two tables with the same row under a key, or both with none. -/
theorem find?_congr {t u : UniqueTable key} {k : κ}
    (h : ∀ r, key r = k → (r ∈ t.rows ↔ r ∈ u.rows)) : t.find? k = u.find? k := by
  apply Option.ext
  intro r
  rw [find?_eq_some, find?_eq_some]
  constructor
  · rintro ⟨hr, hk⟩
    exact ⟨(h r hk).mp hr, hk⟩
  · rintro ⟨hr, hk⟩
    exact ⟨(h r hk).mpr hr, hk⟩

@[simp] theorem find?_empty (k : κ) : (empty : UniqueTable key).find? k = none := rfl

/-- A written row is found under its key. -/
theorem find?_put_self (t : UniqueTable key) (r : ρ) : (t.put r).find? (key r) = some r :=
  find?_eq_some.mpr ⟨mem_put.mpr (Or.inl rfl), rfl⟩

/-- A write leaves the rows under the other keys. -/
theorem find?_put_of_ne (t : UniqueTable key) {r : ρ} {k : κ} (h : k ≠ key r) :
    (t.put r).find? k = t.find? k := by
  apply find?_congr
  intro r' hr'
  rw [mem_put, hr']
  constructor
  · rintro (rfl | ⟨hmem, -⟩)
    · exact absurd hr'.symm h
    · exact hmem
  · intro hmem
    exact Or.inr ⟨hmem, h⟩

/-- After many writes the last one under a key is found, or what was there before. -/
theorem find?_putAll (t : UniqueTable key) (rs : List ρ) (k : κ) :
    (t.putAll rs).find? k = (rs.reverse.find? fun r => key r = k).or (t.find? k) := by
  induction rs generalizing t with
  | nil => exact Option.none_or.symm
  | cons r rs ih =>
    have hput : t.putAll (r :: rs) = (t.put r).putAll rs := rfl
    have hlast : (t.put r).find? k = ([r].find? fun r => key r = k).or (t.find? k) := by
      by_cases hk : key r = k
      · rw [List.find?_singleton, if_pos (decide_eq_true hk), Option.some_or, ← hk, find?_put_self]
      · rw [List.find?_singleton, if_neg (Bool.eq_false_iff.mp (decide_eq_false hk)),
          Option.none_or, find?_put_of_ne t (Ne.symm hk)]
    rw [hput, ih, hlast, List.reverse_cons, List.find?_append, Option.or_assoc]

/-- The rows of a table in the other order: there is only one under each key. -/
theorem find?_reverse_rows (t : UniqueTable key) (k : κ) :
    (t.rows.reverse.find? fun r => key r = k) = t.find? k := by
  cases h : t.find? k with
  | none =>
    rw [List.find?_eq_none]
    intro r hr
    simpa using not_holds_iff.mp (find?_eq_none.mp h) r (List.mem_reverse.mp hr)
  | some r =>
    obtain ⟨hr, rfl⟩ := find?_eq_some.mp h
    obtain ⟨r', hr'⟩ := Option.isSome_iff_exists.mp (List.find?_isSome.mpr
      ⟨r, List.mem_reverse.mpr hr, by simp⟩ : (t.rows.reverse.find? fun r' => key r' = key r).isSome)
    have hk : key r' = key r := by simpa using List.find?_some hr'
    rw [hr', eq_of_key_eq (List.mem_reverse.mp (List.mem_of_find?_eq_some hr')) hr hk]

/-- A row is still found when it passes the condition, and no other one takes its key. -/
theorem find?_filter (t : UniqueTable key) (p : ρ → Bool) (k : κ) :
    (t.filter p).find? k = (t.find? k).filter p := by
  apply Option.ext
  intro r
  rw [find?_eq_some, mem_filter, Option.filter_eq_some_iff, find?_eq_some, and_right_comm]

/-- An update changes the row under each key by the function. -/
theorem find?_update {t : UniqueTable key} {f : ρ → ρ} (hf : ∀ r, key (f r) = key r) {k : κ} :
    (t.update f hf).find? k = (t.find? k).map f := by
  cases h : t.find? k with
  | none =>
    rw [Option.map_none, find?_eq_none, not_holds_iff]
    intro r hr
    obtain ⟨r', hr', rfl⟩ := List.mem_map.mp hr
    rw [hf]
    exact not_holds_iff.mp (find?_eq_none.mp h) r' hr'
  | some r =>
    obtain ⟨hr, hk⟩ := find?_eq_some.mp h
    rw [Option.map_some, find?_eq_some]
    exact ⟨List.mem_map_of_mem hr, (hf r).trans hk⟩

/-! ### Insert or change -/

/-- `INSERT` of one row, `ON CONFLICT DO UPDATE` of the row that holds its key. -/
def upsert (t : UniqueTable key) (r : ρ) (f : ρ → ρ) (hf : ∀ r, key (f r) = key r) :
    UniqueTable key :=
  if t.Holds (key r) then
    t.update (fun r' => if key r' = key r then f r' else r') fun r' => by
      split
      · exact hf r'
      · rfl
  else t.insertNew r

section

variable {t : UniqueTable key} {r r' : ρ} {f : ρ → ρ} {hf : ∀ r, key (f r) = key r}

/-- After it the key holds the changed row, or the new one. -/
theorem find?_upsert_self :
    (t.upsert r f hf).find? (key r) = some ((t.find? (key r)).elim r f) := by
  by_cases h : t.Holds (key r)
  · obtain ⟨r₀, hr₀⟩ := exists_find? h
    have hkey : key r₀ = key r := (find?_eq_some.mp hr₀).2
    rw [upsert, if_pos h, find?_update, hr₀, Option.map_some, if_pos hkey, Option.elim_some]
  · rw [upsert, if_neg h, find?_eq_none.mpr h, Option.elim_none, find?_eq_some,
      rows_insertNew_of_not_holds h]
    exact ⟨List.mem_append_right _ (List.mem_singleton_self r), rfl⟩

/-- The other keys keep their rows. -/
theorem find?_upsert_of_ne {k : κ} (hne : k ≠ key r) : (t.upsert r f hf).find? k = t.find? k := by
  by_cases h : t.Holds (key r)
  · rw [upsert, if_pos h, find?_update]
    cases hk : t.find? k with
    | none => rfl
    | some r₀ =>
      have hr₀ : key r₀ ≠ key r := (find?_eq_some.mp hk).2 ▸ hne
      rw [Option.map_some, if_neg hr₀]
  · rw [upsert, if_neg h]
    refine find?_congr fun r₀ hr₀ => ?_
    rw [rows_insertNew_of_not_holds h, List.mem_append, List.mem_singleton, or_iff_left]
    rintro rfl
    exact hne hr₀.symm

/-- A row of the table after it is an old one of another key, the changed row, or the new one. -/
theorem mem_upsert (h : r' ∈ (t.upsert r f hf).rows) :
    (r' ∈ t.rows ∧ key r' ≠ key r) ∨
      (∃ r₀ ∈ t.rows, key r₀ = key r ∧ r' = f r₀) ∨ (r' = r ∧ ¬ t.Holds (key r)) := by
  by_cases hkey : key r' = key r
  · have hfind := find?_eq_some.mpr ⟨h, hkey⟩
    rw [find?_upsert_self, Option.some.injEq] at hfind
    cases hold : t.find? (key r) with
    | none =>
      rw [hold, Option.elim_none] at hfind
      exact Or.inr (Or.inr ⟨hfind.symm, find?_eq_none.mp hold⟩)
    | some r₀ =>
      rw [hold, Option.elim_some] at hfind
      obtain ⟨hr₀, hk₀⟩ := find?_eq_some.mp hold
      exact Or.inr (Or.inl ⟨r₀, hr₀, hk₀, hfind.symm⟩)
  · have hfind := find?_eq_some.mpr ⟨h, rfl⟩
    rw [find?_upsert_of_ne hkey] at hfind
    exact Or.inl ⟨(find?_eq_some.mp hfind).1, hkey⟩

end

/-! ### Totals -/

/-- The sum of a number over the rows. -/
def total (t : UniqueTable key) (f : ρ → Nat) : Nat := (t.rows.map f).sum

/-- Of rows with distinct keys, the others and the one with the key make up the sum. -/
private theorem sum_filter_add (k : κ) (f : ρ → Nat) {rs : List ρ} (hnd : (rs.map key).Nodup) :
    ((rs.filter fun r => key r ≠ k).map f).sum + ((rs.find? fun r => key r = k).map f).getD 0 =
      (rs.map f).sum := by
  induction rs with
  | nil => rfl
  | cons r rs ih =>
    rw [List.map_cons, List.nodup_cons] at hnd
    have hrest := ih hnd.2
    by_cases hr : key r = k
    · -- no other row has the key
      have hfilter : rs.filter (fun r => key r ≠ k) = rs := by
        rw [List.filter_eq_self]
        intro r' hr'
        refine decide_eq_true fun hk => hnd.1 ?_
        rw [hr, ← hk]
        exact List.mem_map_of_mem hr'
      rw [List.filter_cons_of_neg (by simpa using hr), List.find?_cons_of_pos (by simpa using hr),
        hfilter, List.map_cons, List.sum_cons, Option.map_some, Option.getD_some]
      omega
    · rw [List.filter_cons_of_pos (by simpa using hr), List.find?_cons_of_neg (by simpa using hr),
        List.map_cons, List.sum_cons, List.map_cons, List.sum_cons]
      omega

/-- A delete takes the number of its row out of the sum. -/
theorem total_erase (t : UniqueTable key) (k : κ) (f : ρ → Nat) :
    (t.erase k).total f + ((t.find? k).map f).getD 0 = t.total f :=
  sum_filter_add k f t.unique

/-- A write puts the number of its row in the place of the one that was there. -/
theorem total_put (t : UniqueTable key) (r : ρ) (f : ρ → Nat) :
    (t.put r).total f + ((t.find? (key r)).map f).getD 0 = t.total f + f r := by
  have herase := t.total_erase (key r) f
  have hput : (t.put r).total f = (t.erase (key r)).total f + f r := by
    simp only [total, put, erase, List.map_append, List.sum_append, List.map_singleton,
      List.sum_singleton]
  omega

end

end UniqueTable
