import Inherent.ForStd.OutlineCounter
import Inherent.Native.DocxNumbering

/-!
# DOCX numbering follows the history of its lists

The counters of a list are those of the outline of its items (`OutlineCounter.after`), whatever
calls for other lists stand between them.  Calls are listed with the last one first.
-/

namespace Inherent

open OutlineCounter

namespace NumberingScheme

variable (scheme : NumberingScheme)

/-- The state after the calls. -/
def stateAfter : List MarkerCall → NumberingState
  | [] => .initial
  | call :: past => (scheme.markerFor (stateAfter past) call).1

/-- The call renders an item of the abstract list. -/
def Renders (abstractId : String) (call : MarkerCall) : Prop :=
  scheme.numToAbstract call.numId = some abstractId ∧
    (scheme.abstractLevels abstractId call.ilvl).isSome

instance (abstractId : String) (call : MarkerCall) :
    Decidable (scheme.Renders abstractId call) := by
  unfold Renders
  infer_instance

/-- The override that belongs to a call: the one of its `numId` and level, the first time. -/
def overrideOf (past : List MarkerCall) (call : MarkerCall) : Option ℤ :=
  if call ∈ past then none else scheme.startOverrides (call.numId, call.ilvl)

/-- The items of an abstract list. -/
def entries (abstractId : String) : List MarkerCall → List (Entry ℤ)
  | [] => []
  | call :: past =>
    if scheme.Renders abstractId call then
      { level := call.ilvl, restart := scheme.overrideOf past call } :: entries abstractId past
    else entries abstractId past

/-- The starts of the levels of an abstract list. -/
def levelStart (abstractId : String) (l : ℤ) : ℤ :=
  ((scheme.abstractLevels abstractId l).map LevelDef.start).getD 1

variable {scheme}

/-! ## One call -/

theorem markerFor_of_renders {abstractId : String} {call : MarkerCall} (st : NumberingState)
    (h : scheme.Renders abstractId call) :
    ∃ level, scheme.abstractLevels abstractId call.ilvl = some level ∧
      (scheme.markerFor st call).1 =
        { counters := Function.update st.counters abstractId
            (advanceCounters (st.counters abstractId) level call.ilvl
              (scheme.unconsumedOverride st (call.numId, call.ilvl)))
          consumedStartOverrides :=
            if (scheme.unconsumedOverride st (call.numId, call.ilvl)).isSome then
              insert (call.numId, call.ilvl) st.consumedStartOverrides
            else st.consumedStartOverrides } := by
  obtain ⟨habstract, hlevel⟩ := h
  obtain ⟨level, hlevel⟩ := Option.isSome_iff_exists.mp hlevel
  refine ⟨level, hlevel, ?_⟩
  unfold markerFor
  rw [habstract]
  simp only
  rw [hlevel]
  simp only
  split <;> rfl

theorem markerFor_of_not_renders {call : MarkerCall} (st : NumberingState)
    (h : ∀ abstractId, ¬ scheme.Renders abstractId call) :
    scheme.markerFor st call = (st, none) := by
  unfold markerFor
  cases habstract : scheme.numToAbstract call.numId with
  | none => rfl
  | some abstractId =>
    cases hlevel : scheme.abstractLevels abstractId call.ilvl with
    | none =>
      simp only
      rw [hlevel]
    | some level => exact absurd ⟨habstract, by rw [hlevel]; rfl⟩ (h abstractId)

theorem Renders.eq {a b : String} {call : MarkerCall} (ha : scheme.Renders a call)
    (hb : scheme.Renders b call) : a = b :=
  Option.some.inj (ha.1.symm.trans hb.1)

/-! ## The overrides -/

theorem mem_consumed_step {call : MarkerCall} {abstractId : String} (st : NumberingState)
    (h : scheme.Renders abstractId call) (key : String × ℤ) :
    key ∈ (scheme.markerFor st call).1.consumedStartOverrides ↔
      key ∈ st.consumedStartOverrides ∨
        key = (call.numId, call.ilvl) ∧ (scheme.startOverrides key).isSome := by
  obtain ⟨level, -, hstep⟩ := markerFor_of_renders st h
  rw [hstep]
  by_cases hconsumed : (call.numId, call.ilvl) ∈ st.consumedStartOverrides
  · have hnone : scheme.unconsumedOverride st (call.numId, call.ilvl) = none := if_pos hconsumed
    simp only [hnone, Option.isSome_none, Bool.false_eq_true, if_false]
    constructor
    · exact .inl
    · rintro (hmem | ⟨rfl, -⟩)
      · exact hmem
      · exact hconsumed
  · have hfresh : scheme.unconsumedOverride st (call.numId, call.ilvl) =
        scheme.startOverrides (call.numId, call.ilvl) := if_neg hconsumed
    simp only [hfresh]
    by_cases hsome : (scheme.startOverrides (call.numId, call.ilvl)).isSome
    · rw [if_pos hsome, Finset.mem_insert, or_comm]
      apply or_congr_right
      exact ⟨fun hkey => ⟨hkey, hkey ▸ hsome⟩, And.left⟩
    · rw [if_neg hsome]
      constructor
      · exact .inl
      · rintro (hmem | ⟨rfl, hsome'⟩)
        · exact hmem
        · exact absurd hsome' hsome

/-- An override has been applied exactly when an item of its `numId` and level has been rendered. -/
theorem mem_consumed_iff {call : MarkerCall} {abstractId : String}
    (hrenders : scheme.Renders abstractId call) (past : List MarkerCall) :
    (call.numId, call.ilvl) ∈ (scheme.stateAfter past).consumedStartOverrides ↔
      call ∈ past ∧ (scheme.startOverrides (call.numId, call.ilvl)).isSome := by
  induction past with
  | nil => simp [stateAfter, NumberingState.initial]
  | cons last past ih =>
    have hkey : (call.numId, call.ilvl) = (last.numId, last.ilvl) ↔ call = last := by
      cases call
      cases last
      simp
    rw [stateAfter, List.mem_cons]
    by_cases hlast : ∃ b, scheme.Renders b last
    · obtain ⟨b, hb⟩ := hlast
      rw [mem_consumed_step _ hb, ih, hkey]
      tauto
    · have hne : call ≠ last := fun h => hlast ⟨abstractId, h ▸ hrenders⟩
      rw [markerFor_of_not_renders _ fun b hb => hlast ⟨b, hb⟩, ih]
      simp [hne]

theorem unconsumedOverride_eq {call : MarkerCall} {abstractId : String}
    (hrenders : scheme.Renders abstractId call) (past : List MarkerCall) :
    scheme.unconsumedOverride (scheme.stateAfter past) (call.numId, call.ilvl) =
      scheme.overrideOf past call := by
  simp only [unconsumedOverride, overrideOf, mem_consumed_iff hrenders]
  by_cases hmem : call ∈ past
  · rw [if_pos hmem]
    cases hoverride : scheme.startOverrides (call.numId, call.ilvl) <;> simp [hmem]
  · rw [if_neg hmem, if_neg fun h => hmem h.1]

/-! ## The counters -/

theorem advanceCounters_eq {abstractId : String} {call : MarkerCall} {level : LevelDef}
    (hlevel : scheme.abstractLevels abstractId call.ilvl = some level)
    (counters : ℤ → Option ℤ) (override : Option ℤ) :
    advanceCounters counters level call.ilvl override =
      advance (scheme.levelStart abstractId) counters
        { level := call.ilvl, restart := override } := by
  funext l
  unfold advanceCounters advance
  by_cases hl : l = call.ilvl
  · subst hl
    rw [if_pos rfl, if_pos rfl, levelStart, hlevel]
    cases override <;> rfl
  · rw [if_neg hl, if_neg hl]

/-- The counters of an abstract list are those of the outline of its items. -/
theorem counters_eq_after (past : List MarkerCall) (abstractId : String) :
    (scheme.stateAfter past).counters abstractId =
      after (scheme.levelStart abstractId) (scheme.entries abstractId past) := by
  induction past with
  | nil => rfl
  | cons call past ih =>
    rw [stateAfter, entries]
    by_cases hcall : ∃ b, scheme.Renders b call
    · obtain ⟨b, hb⟩ := hcall
      obtain ⟨level, hlevel, hstep⟩ := markerFor_of_renders (scheme.stateAfter past) hb
      rw [hstep]
      simp only
      by_cases hab : abstractId = b
      · subst hab
        rw [if_pos hb, Function.update_self, advanceCounters_eq hlevel,
          unconsumedOverride_eq hb, ih]
        rfl
      · rw [if_neg fun ha => hab (ha.eq hb), Function.update_of_ne hab, ih]
    · rw [markerFor_of_not_renders _ fun b hb => hcall ⟨b, hb⟩,
        if_neg fun ha => hcall ⟨abstractId, ha⟩, ih]

theorem levelStart_eq {abstractId : String} {l : ℤ} {level : LevelDef}
    (h : scheme.abstractLevels abstractId l = some level) :
    scheme.levelStart abstractId l = level.start := by
  rw [levelStart, h]
  rfl

/-- The calls that apply the override of a `numId` and level. -/
def applications (scheme : NumberingScheme) (call : MarkerCall) : List MarkerCall → Nat
  | [] => 0
  | last :: past =>
    (if last = call ∧ (scheme.overrideOf past last).isSome then 1 else 0) +
      applications scheme call past

theorem applications_eq (call : MarkerCall) (past : List MarkerCall) :
    scheme.applications call past =
      if call ∈ past ∧ (scheme.startOverrides (call.numId, call.ilvl)).isSome then 1 else 0 := by
  induction past with
  | nil => simp [applications]
  | cons last past ih =>
    rw [applications, ih, overrideOf]
    by_cases hlast : last = call
    · subst hlast
      by_cases hmem : last ∈ past <;> simp [hmem]
    · simp [hlast, Ne.symm hlast]

/-! ## The counts of a marker -/

/-- The counts that the markers of an abstract list show, the last one first. -/
def markerTuples (scheme : NumberingScheme) (abstractId : String) :
    List MarkerCall → List (List ℤ)
  | [] => []
  | call :: past =>
    match scheme.levelDef call.numId call.ilvl with
    | none => markerTuples scheme abstractId past
    | some level =>
      if scheme.Renders abstractId call then
        ((scheme.placeholders call.numId call.ilvl level
          ((scheme.stateAfter (call :: past)).counters abstractId)).map fun (_, _, count) => count)
          :: markerTuples scheme abstractId past
      else markerTuples scheme abstractId past

/-- An item's level is defined. -/
theorem isSome_of_mem_entries {abstractId : String} {past : List MarkerCall} {e : Entry ℤ}
    (h : e ∈ scheme.entries abstractId past) :
    (scheme.abstractLevels abstractId e.level).isSome := by
  induction past with
  | nil => cases h
  | cons call past ih =>
    unfold entries at h
    split at h
    · next hrenders =>
      rcases List.mem_cons.mp h with rfl | h
      · exact hrenders.2
      · exact ih h
    · exact ih h

/-- A level with a counter is defined. -/
theorem isSome_of_after {abstractId : String} {past : List MarkerCall} {l : ℤ}
    (h : (after (scheme.levelStart abstractId) (scheme.entries abstractId past) l).isSome) :
    (scheme.abstractLevels abstractId l).isSome := by
  rw [after_eq_value] at h
  cases hsince : since l (scheme.entries abstractId past) with
  | nil => simp [hsince, value] at h
  | cons e older =>
    have hmem : e ∈ since l (scheme.entries abstractId past) := hsince ▸ List.mem_cons_self
    obtain ⟨hmem, hlevel⟩ := List.mem_filter.mp hmem
    have hlevel : e.level = l := by simpa using hlevel
    exact hlevel ▸ isSome_of_mem_entries ((List.takeWhile_subset _) hmem)

theorem entries_cons_of_renders {abstractId : String} {call : MarkerCall}
    (h : scheme.Renders abstractId call) (past : List MarkerCall) :
    scheme.entries abstractId (call :: past) =
      { level := call.ilvl, restart := scheme.overrideOf past call } ::
        scheme.entries abstractId past :=
  if_pos h

/-- In a nested list the marker shows the counters down to its level. -/
theorem placeholders_eq_path {abstractId : String} {call : MarkerCall} {past : List MarkerCall}
    (level : LevelDef) (hrenders : scheme.Renders abstractId call)
    (hnested : Nested (scheme.entries abstractId (call :: past))) :
    (scheme.placeholders call.numId call.ilvl level
        ((scheme.stateAfter (call :: past)).counters abstractId)).map
          (fun (_, _, count) => count) =
      path (scheme.levelStart abstractId) (scheme.entries abstractId (call :: past)) := by
  have hdepth : depth (scheme.entries abstractId (call :: past)) = call.ilvl := by
    rw [entries_cons_of_renders hrenders]
    rfl
  rw [counters_eq_after, placeholders, path, hdepth, List.map_filterMap,
    ← List.filterMap_eq_map]
  apply List.filterMap_congr
  intro i hi
  have hi := List.mem_range.mp hi
  have hcounter : (after (scheme.levelStart abstractId)
      (scheme.entries abstractId (call :: past)) i).isSome := by
    rw [after_isSome_iff hnested, hdepth]
    omega
  obtain ⟨count, hcount⟩ := Option.isSome_iff_exists.mp hcounter
  have hancestor : (if (i : ℤ) = call.ilvl then some level
      else scheme.levelDef call.numId i).isSome := by
    split
    · rfl
    · rw [levelDef, hrenders.1]
      exact isSome_of_after hcounter
  obtain ⟨ancestor, hancestor⟩ := Option.isSome_iff_exists.mp hancestor
  simp only [hancestor, hcount, Option.map_some, Option.getD_some, Function.comp_apply]

/-- Before the last item the markers of a nested list show at most its path. -/
theorem markerTuples_spec {abstractId : String} {past : List MarkerCall}
    (hoverrides : ∀ call ∈ past, scheme.Renders abstractId call →
      scheme.startOverrides (call.numId, call.ilvl) = none)
    (hnested : Nested (scheme.entries abstractId past)) :
    (scheme.markerTuples abstractId past).Pairwise (· > ·) ∧
      ∀ tuple ∈ scheme.markerTuples abstractId past,
        tuple ≤ path (scheme.levelStart abstractId) (scheme.entries abstractId past) := by
  induction past with
  | nil => exact ⟨List.Pairwise.nil, fun tuple h => by cases h⟩
  | cons call past ih =>
    have hoverrides' : ∀ earlier ∈ past, scheme.Renders abstractId earlier →
        scheme.startOverrides (earlier.numId, earlier.ilvl) = none :=
      fun earlier h => hoverrides earlier (List.mem_cons_of_mem call h)
    -- a call that renders nothing is no entry and has no tuple
    by_cases hrenders : scheme.Renders abstractId call
    · have hnested' := hnested
      rw [entries_cons_of_renders hrenders] at hnested'
      obtain ⟨hpairwise, hle⟩ := ih hoverrides' hnested'.2.2
      have hnone : scheme.overrideOf past call = none := by
        rw [overrideOf, hoverrides call List.mem_cons_self hrenders, ite_self]
      -- the new entry lies behind all the earlier ones
      have hlt : path (scheme.levelStart abstractId) (scheme.entries abstractId past) <
          path (scheme.levelStart abstractId) (scheme.entries abstractId (call :: past)) := by
        rw [entries_cons_of_renders hrenders]
        exact path_lt_path_cons hnested' hnone
      obtain ⟨level, hlevel⟩ := Option.isSome_iff_exists.mp hrenders.2
      have hdef : scheme.levelDef call.numId call.ilvl = some level := by
        rw [levelDef, hrenders.1]
        exact hlevel
      unfold markerTuples
      rw [hdef]
      simp only
      rw [if_pos hrenders, placeholders_eq_path level hrenders hnested]
      refine ⟨List.pairwise_cons.mpr ⟨fun tuple h => (hle tuple h).trans_lt hlt, hpairwise⟩, ?_⟩
      intro tuple h
      rcases List.mem_cons.mp h with rfl | h
      · exact le_refl _
      · exact (hle tuple h).trans hlt.le
    · have hentries : scheme.entries abstractId (call :: past) = scheme.entries abstractId past :=
        if_neg hrenders
      rw [hentries] at hnested ⊢
      have htuples : scheme.markerTuples abstractId (call :: past) =
          scheme.markerTuples abstractId past := by
        rw [markerTuples]
        split
        · rfl
        · rw [if_neg hrenders]
      rw [htuples]
      exact ih hoverrides' hnested

end NumberingScheme

/-! ## Numbering -/

/-- The numbering of an abstract list behind any calls, the last one first. -/
structure NumberingSpec (scheme : NumberingScheme) (abstractId : String) (past : List MarkerCall) :
    Prop where
  /-- A level without an item since the last shallower one has no counter. -/
  absent : ∀ l, since l (scheme.entries abstractId past) = [] →
    (scheme.stateAfter past).counters abstractId l = none
  /-- Without an override the last item has the start and one more for each item before it. -/
  counted : ∀ l level e (earlier : List (Entry ℤ)), scheme.abstractLevels abstractId l = some level →
    since l (scheme.entries abstractId past) = e :: earlier →
    (∀ d ∈ e :: earlier, d.restart = none) →
    (scheme.stateAfter past).counters abstractId l = some (level.start + earlier.length)
  /-- Behind an override there is one more for each item after it. -/
  restarted : ∀ l (later : List (Entry ℤ)) e earlier (v : ℤ),
    since l (scheme.entries abstractId past) = later ++ e :: earlier →
    (∀ d ∈ later, d.restart = none) → e.restart = some v →
    (scheme.stateAfter past).counters abstractId l = some (v + later.length)
  /-- An override is applied once. -/
  overridden : ∀ call, scheme.applications call past =
    if call ∈ past ∧ (scheme.startOverrides (call.numId, call.ilvl)).isSome then 1 else 0
  /-- In a nested list without overrides the counts of the markers increase. -/
  increasing : (∀ call ∈ past, scheme.Renders abstractId call →
      scheme.startOverrides (call.numId, call.ilvl) = none) →
    Nested (scheme.entries abstractId past) →
    (scheme.markerTuples abstractId past).Pairwise (· > ·) ∧
      (scheme.markerTuples abstractId past).Nodup

/-- For every definition, list and sequence of calls, the counter of a level is its start, or the
    value of an override that has been applied, with one more for each later item at the level
    since the last item at a shallower level; an override is applied by the first item of its
    `numId` and level only; and a list that starts at its outermost level and gets deeper by one
    level at a time shows no marker's counts twice. -/
theorem markerFor_numbering (scheme : NumberingScheme) (abstractId : String)
    (past : List MarkerCall) : NumberingSpec scheme abstractId past where
  absent l h := by
    rw [NumberingScheme.counters_eq_after, after_eq_value, h]
    rfl
  counted l level e earlier hlevel h hrestart := by
    rw [NumberingScheme.counters_eq_after, after_eq_value, h, value_eq_start_add hrestart,
      NumberingScheme.levelStart_eq hlevel]
  restarted l later e earlier v h hlater he := by
    rw [NumberingScheme.counters_eq_after, after_eq_value, h, value_eq_restart_add hlater he]
  overridden call := NumberingScheme.applications_eq call past
  increasing hoverrides hnested := by
    obtain ⟨hpairwise, -⟩ := NumberingScheme.markerTuples_spec hoverrides hnested
    exact ⟨hpairwise, hpairwise.imp fun h => h.ne'⟩

/-- Two decimal levels that start at `1`. -/
def twoLevels : NumberingScheme where
  abstractLevels abstractId ilvl :=
    if abstractId = "0" ∧ 0 ≤ ilvl ∧ ilvl ≤ 1 then
      some { numFmt := "decimal", lvlText := "%1.%2", start := 1, decimalOverride := false }
    else none
  numToAbstract numId := if numId = "1" then some "0" else none
  startOverrides _ := none

/-- A list that starts below its outermost level shows the counts `1.1` twice. -/
theorem not_increasing_from_deeper_level :
    ¬ ∀ (scheme : NumberingScheme) (abstractId : String) (past : List MarkerCall),
      (∀ call ∈ past, scheme.startOverrides (call.numId, call.ilvl) = none) →
      (past.map MarkerCall.ilvl).IsChain (fun later earlier => later ≤ earlier + 1) →
      (scheme.markerTuples abstractId past).Nodup := by
  intro h
  have hnodup := h twoLevels "0" [⟨"1", 1⟩, ⟨"1", 0⟩, ⟨"1", 1⟩] (fun _ _ => rfl) (by decide)
  revert hnodup
  decide +kernel

-- from the outermost level on, the last call first
example : twoLevels.markerTuples "0" [⟨"1", 1⟩, ⟨"1", 0⟩, ⟨"1", 1⟩, ⟨"1", 1⟩, ⟨"1", 0⟩] =
    [[2, 1], [2], [1, 2], [1, 1], [1]] := by decide +kernel

end Inherent
