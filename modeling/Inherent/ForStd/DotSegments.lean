import Mathlib

/-!
# Dot segments of paths

A path is a list of segments, some of which stay `here` and some of which go `up`.  `walk`
follows one from a directory; nothing is above the root.  `relative` reduces a path whose
start is not known, and so keeps the segments that go up from there.  `walk_eq` says that
both agree: a path leads where its reduced form leads.  Directories are lists of names, the
deepest one first.
-/

namespace DotSegments

variable {σ : Type*} (here up : σ → Bool)

/-- One segment from a directory. -/
def step (dir : List σ) (s : σ) : List σ :=
  if here s then dir else if up s then dir.tail else s :: dir

/-- A path from a directory. -/
def walk (dir : List σ) (path : List σ) : List σ := path.foldl (step here up) dir

/-- One segment of a path whose start is not known. -/
def stepRelative (reduced : List σ) (s : σ) : List σ :=
  if here s then reduced
  else if up s then
    match reduced with
    | [] => [s]
    | top :: rest => if up top then s :: reduced else rest
  else s :: reduced

/-- The reduced form of a path, its last segment first. -/
def relative (path : List σ) : List σ := path.foldl (stepRelative here up) []

/-- The reduced form of a path: names above segments that go up. -/
structure Reduced (reduced names ups : List σ) : Prop where
  eq : reduced = names ++ ups
  names : ∀ s ∈ names, here s = false ∧ up s = false
  ups : ∀ s ∈ ups, here s = false ∧ up s = true

variable {here up}

/-- Names are put on the directory. -/
theorem walk_of_names {path : List σ} (h : ∀ s ∈ path, here s = false ∧ up s = false)
    (dir : List σ) : walk here up dir path = path.reverse ++ dir := by
  induction path generalizing dir with
  | nil => rfl
  | cons s path ih =>
    obtain ⟨hhere, hup⟩ := h s List.mem_cons_self
    have hstep : step here up dir s = s :: dir := by simp [step, hhere, hup]
    have ih := ih (fun t ht => h t (List.mem_cons_of_mem _ ht)) (s :: dir)
    rw [walk, List.foldl_cons, hstep]
    simpa [walk] using ih

/-- A path leads from a directory where the names of its reduced form lead from the directory
    that the rest of it goes up to. -/
theorem walk_eq (dir path : List σ) :
    ∃ names ups, Reduced here up (relative here up path) names ups ∧
      walk here up dir path = names ++ dir.drop ups.length := by
  induction path using List.reverseRecOn with
  | nil => exact ⟨[], [], ⟨rfl, by simp, by simp⟩, by simp [walk]⟩
  | append_singleton path s ih =>
    obtain ⟨names, ups, ⟨hrel, hnames, hups⟩, hwalk⟩ := ih
    have hrel' : relative here up (path ++ [s]) =
        stepRelative here up (relative here up path) s := by simp [relative]
    have hwalk' : walk here up dir (path ++ [s]) = step here up (walk here up dir path) s := by
      simp [walk]
    rw [hrel', hwalk', hrel, hwalk]
    cases hhere : here s with
    | true =>
      refine ⟨names, ups, ⟨?_, hnames, hups⟩, ?_⟩
      · simp [stepRelative, hhere]
      · simp [step, hhere]
    | false =>
      cases hup : up s with
      | false =>
        refine ⟨s :: names, ups, ⟨?_, ?_, hups⟩, ?_⟩
        · simp [stepRelative, hhere, hup]
        · intro t ht
          cases List.mem_cons.mp ht with
          | inl h => exact h ▸ ⟨hhere, hup⟩
          | inr h => exact hnames t h
        · simp [step, hhere, hup]
      | true =>
        have hstep : step here up (names ++ dir.drop ups.length) s =
            (names ++ dir.drop ups.length).tail := by simp [step, hhere, hup]
        rw [hstep]
        cases names with
        | cons top names =>
          -- the last name is left
          have htop := (hnames top List.mem_cons_self).2
          refine ⟨names, ups, ⟨?_, ?_, hups⟩, rfl⟩
          · simp [stepRelative, hhere, hup, htop]
          · exact fun t ht => hnames t (List.mem_cons_of_mem _ ht)
        | nil =>
          refine ⟨[], s :: ups, ⟨?_, by simp, ?_⟩, ?_⟩
          · cases ups with
            | nil => simp [stepRelative, hhere, hup]
            | cons top ups => simp [stepRelative, hhere, hup, (hups top List.mem_cons_self).2]
          · intro t ht
            cases List.mem_cons.mp ht with
            | inl h => exact h ▸ ⟨hhere, hup⟩
            | inr h => exact hups t h
          · simp [List.tail_drop]

/-- A directory of names leads to directories of names only. -/
theorem names_walk {dir : List σ} (h : ∀ s ∈ dir, here s = false ∧ up s = false)
    (path : List σ) : ∀ s ∈ walk here up dir path, here s = false ∧ up s = false := by
  induction path generalizing dir with
  | nil => exact h
  | cons s path ih =>
    rw [walk, List.foldl_cons]
    apply ih
    intro t ht
    unfold step at ht
    split at ht
    · exact h t ht
    · split at ht
      · exact h t (List.mem_of_mem_tail ht)
      · next hhere hup =>
        rcases List.mem_cons.mp ht with rfl | ht
        · exact ⟨by simpa using hhere, by simpa using hup⟩
        · exact h t ht

theorem mem_stepRelative {reduced : List σ} {s t : σ} (h : s ∈ stepRelative here up reduced t) :
    s ∈ reduced ∨ s = t ∧ here t = false := by
  have hcons (hhere : here t = false) (hmem : s ∈ t :: reduced) :
      s ∈ reduced ∨ s = t ∧ here t = false := by
    rcases List.mem_cons.mp hmem with rfl | hmem
    · exact .inr ⟨rfl, hhere⟩
    · exact .inl hmem
  unfold stepRelative at h
  split at h
  · exact .inl h
  · next hhere =>
    rw [Bool.not_eq_true] at hhere
    split at h
    · cases reduced with
      | nil => exact hcons hhere h
      | cons top rest =>
        simp only at h
        split at h
        · exact hcons hhere h
        · exact .inl (List.mem_cons_of_mem _ h)
    · exact hcons hhere h

/-- A reduced path has only segments of the path, and none that stays. -/
theorem mem_relative {path : List σ} {s : σ} (h : s ∈ relative here up path) :
    s ∈ path ∧ here s = false := by
  induction path using List.reverseRecOn with
  | nil => cases h
  | append_singleton path t ih =>
    rw [relative, List.foldl_append] at h
    rcases mem_stepRelative h with hmem | ⟨rfl, hhere⟩
    · exact ⟨List.mem_append_left _ (ih hmem).1, (ih hmem).2⟩
    · exact ⟨List.mem_append_right _ List.mem_cons_self, hhere⟩

/-! ## Paths that do not leave their start -/

/-- A segment that goes up stays in a reduced path for good. -/
theorem mem_foldl_of_up {reduced : List σ} {t : σ} (ht : t ∈ reduced) (hup : up t = true)
    (path : List σ) : t ∈ path.foldl (stepRelative here up) reduced := by
  induction path generalizing reduced with
  | nil => exact ht
  | cons s path ih =>
    rw [List.foldl_cons]
    apply ih
    unfold stepRelative
    split
    · exact ht
    · split
      · cases reduced with
        | nil => cases ht
        | cons top rest =>
          simp only
          split
          · exact List.mem_cons_of_mem _ ht
          · next htop =>
            rcases List.mem_cons.mp ht with rfl | ht
            · exact absurd hup htop
            · exact ht
      · exact List.mem_cons_of_mem _ ht

theorem stepRelative_of_here {s : σ} (h : here s = true) (reduced : List σ) :
    stepRelative here up reduced s = reduced := by
  simp [stepRelative, h]

theorem stepRelative_of_name {s : σ} (hhere : here s = false) (hup : up s = false)
    (reduced : List σ) : stepRelative here up reduced s = s :: reduced := by
  simp [stepRelative, hhere, hup]

/-- A segment that goes up takes a name off. -/
theorem stepRelative_of_up {s : σ} (hhere : here s = false) (hup : up s = true) {top : σ}
    (htop : up top = false) (rest : List σ) :
    stepRelative here up (top :: rest) s = rest := by
  simp [stepRelative, hhere, hup, htop]

theorem length_stepRelative_le (reduced : List σ) (s : σ) :
    (stepRelative here up reduced s).length ≤ reduced.length + 1 := by
  unfold stepRelative
  split
  · omega
  · split
    · cases reduced with
      | nil => simp
      | cons top rest =>
        simp only
        split
        · simp
        · simp only [List.length_cons]
          omega
    · simp

/-- Segments that are replaced by names lead no further up. -/
theorem no_ups_of_forall₂ {path path' : List σ}
    (hpath : List.Forall₂ (fun s s' => s' = s ∨ here s' = false ∧ up s' = false) path path')
    (h : ∀ s ∈ relative here up path, up s = false) :
    ∀ s ∈ relative here up path', up s = false := by
  -- the second path has left at least as many names behind
  suffices hfold : ∀ reduced reduced' : List σ, (∀ s ∈ reduced', up s = false) →
      reduced.length ≤ reduced'.length →
      (∀ s ∈ path.foldl (stepRelative here up) reduced, up s = false) →
      ∀ s ∈ path'.foldl (stepRelative here up) reduced', up s = false from
    hfold [] [] (by simp) le_rfl h
  clear h
  induction hpath with
  | nil => exact fun reduced reduced' hreduced' _ _ => hreduced'
  | @cons s s' path path' hs _ ih =>
    intro reduced reduced' hreduced' hlen h
    rw [List.foldl_cons] at h ⊢
    have hstep : ∀ t ∈ stepRelative here up reduced s, up t = false := by
      intro t ht
      by_contra hup
      have hup : up t = true := by simpa using hup
      exact absurd (h t (mem_foldl_of_up ht hup path)) (by simp [hup])
    have hlen' : (stepRelative here up reduced s).length ≤ reduced.length + 1 :=
      length_stepRelative_le reduced s
    rcases hs with rfl | ⟨hhere, hup⟩
    · cases hhere : here s' with
      | true =>
        rw [stepRelative_of_here hhere] at h ⊢
        exact ih _ _ hreduced' hlen h
      | false =>
        cases hup : up s' with
        | false =>
          rw [stepRelative_of_name hhere hup] at h ⊢
          refine ih _ _ ?_ (by simpa using hlen) h
          intro t ht
          rcases List.mem_cons.mp ht with rfl | ht
          · exact hup
          · exact hreduced' t ht
        | true =>
          -- the first path has a name to take off, and so has the second
          match reduced, reduced' with
          | [], _ =>
            have hmem : s' ∈ stepRelative here up [] s' := by simp [stepRelative, hhere, hup]
            exact absurd (hstep s' hmem) (by simp [hup])
          | _ :: _, [] => simp at hlen
          | top :: rest, top' :: rest' =>
            have htop : up top = false := by
              by_contra htop
              rw [Bool.not_eq_false] at htop
              have hmem : s' ∈ stepRelative here up (top :: rest) s' := by
                simp [stepRelative, hhere, hup, htop]
              exact absurd (hstep s' hmem) (by simp [hup])
            rw [stepRelative_of_up hhere hup htop] at h
            rw [stepRelative_of_up hhere hup (hreduced' top' List.mem_cons_self)]
            exact ih _ _ (fun t ht => hreduced' t (List.mem_cons_of_mem _ ht))
              (by simpa using hlen) h
    · -- a name is put on whatever the other segment does
      rw [stepRelative_of_name hhere hup]
      refine ih _ _ ?_ (by rw [List.length_cons]; omega) h
      intro t ht
      rcases List.mem_cons.mp ht with rfl | ht
      · exact hup
      · exact hreduced' t ht

end DotSegments
