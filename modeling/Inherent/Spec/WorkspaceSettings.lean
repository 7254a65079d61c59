import Inherent.ForStd.EarlyExit
import Inherent.Native.WorkspaceSettings

/-!
# What a setting of workspaces may say

A setting is accepted exactly when each of its entries reads as a binding and no workspace is
bound twice, and then it says these bindings, in their order; what is written as the entries of
bindings is read back.
-/

namespace Inherent

open EarlyExit (bind_eq_ok)

/-! ## Entries -/

/-- The entries of a setting: what stands between commas, without the blank ones. -/
def settingEntries (raw : List Char) : List (List Char) :=
  ((raw.splitOn ',').map PyStr.strip).filter (· ≠ [])

theorem settingEntries_blank {raw : List Char} (h : PyStr.strip raw = []) :
    settingEntries raw = [] := by
  have hblank := PyStr.strip_eq_nil_iff.mp h
  have hcomma : ',' ∉ raw := fun hmem => absurd (hblank ',' hmem) (by decide)
  rw [settingEntries, List.splitOn_eq_singleton hcomma]
  simp [h]

section

variable {β : Type} {setting : BindingSetting β} {entry : List Char} {binding : List Char × β}
  {bindings bindings' : List (List Char × β)}

/-- The entry is a workspace and a value with one `=` between them, and blanks around both. -/
structure BindingSetting.Reads (setting : BindingSetting β) (entry : List Char)
    (binding : List Char × β) : Prop where
  workspaceId_ne_nil : binding.1 ≠ []
  parts : ∃ workspaceId value, entry = workspaceId ++ '=' :: value ∧ '=' ∉ workspaceId ∧
    '=' ∉ value ∧ PyStr.strip workspaceId = binding.1 ∧ PyStr.strip value ≠ [] ∧
      setting.parseValue (PyStr.strip value) = .ok binding.2

/-- A text is split at its first `=`. -/
theorem partition_equals {workspaceId : List Char} (value : List Char) (h : '=' ∉ workspaceId) :
    (workspaceId ++ '=' :: value).takeWhile (· ≠ '=') = workspaceId ∧
      ((workspaceId ++ '=' :: value).dropWhile (· ≠ '=')).drop 1 = value := by
  have hall : ∀ c ∈ workspaceId, decide (c ≠ '=') = true := by
    intro c hc
    apply decide_eq_true
    rintro rfl
    exact h hc
  constructor
  · rw [List.takeWhile_append_of_pos hall, List.takeWhile_cons_of_neg (by simp), List.append_nil]
  · rw [List.dropWhile_append_of_pos hall, List.dropWhile_cons_of_neg (by simp), List.drop_one,
      List.tail_cons]

theorem equals_mem_strip {value : List Char} : '=' ∈ PyStr.strip value ↔ '=' ∈ value := by
  obtain ⟨before, after, htext, hbefore, hafter⟩ := PyStr.exists_append_strip value
  have hb : '=' ∉ before := fun hmem => absurd (hbefore '=' hmem) (by decide)
  have ha : '=' ∉ after := fun hmem => absurd (hafter '=' hmem) (by decide)
  constructor
  · intro hmem
    rw [htext]
    exact List.mem_append_left _ (List.mem_append_right _ hmem)
  · intro hmem
    rw [htext, List.mem_append, List.mem_append] at hmem
    obtain (hmem | hmem) | hmem := hmem
    · exact absurd hmem hb
    · exact hmem
    · exact absurd hmem ha

/-- What a binding that the entry reads as has to do with the parts at the first `=`. -/
theorem BindingSetting.Reads.at_equals {workspaceId value : List Char}
    (h : setting.Reads (workspaceId ++ '=' :: value) binding) (hfirst : '=' ∉ workspaceId) :
    PyStr.strip workspaceId = binding.1 ∧ PyStr.strip value ≠ [] ∧ '=' ∉ value ∧
      setting.parseValue (PyStr.strip value) = .ok binding.2 := by
  obtain ⟨-, workspaceId', value', heq, hfirst', hsecond, hid, hne, hparse⟩ := h
  obtain ⟨htake, hdrop⟩ := partition_equals value hfirst
  obtain ⟨htake', hdrop'⟩ := partition_equals value' hfirst'
  rw [← heq] at htake' hdrop'
  obtain rfl : workspaceId = workspaceId' := htake.symm.trans htake'
  obtain rfl : value = value' := hdrop.symm.trans hdrop'
  exact ⟨hid, hne, hsecond, hparse⟩

theorem BindingSetting.Reads.unique {binding' : List Char × β} (h : setting.Reads entry binding)
    (h' : setting.Reads entry binding') : binding = binding' := by
  obtain ⟨-, workspaceId, value, rfl, hfirst, -, hid, -, hparse⟩ := h
  obtain ⟨hid', -, -, hparse'⟩ := h'.at_equals hfirst
  rw [hparse] at hparse'
  exact Prod.ext (hid.symm.trans hid') (Except.ok.inj hparse')

theorem lookup_eq_none_iff_notMem {workspaceId : List Char} :
    bindings.lookup workspaceId = none ↔ workspaceId ∉ bindings.map Prod.fst := by
  rw [List.lookup_eq_none_iff]
  constructor
  · intro hall hmem
    obtain ⟨item, hitem, rfl⟩ := List.mem_map.mp hmem
    simpa using hall item hitem
  · intro hnew item hitem
    rw [bne_iff_ne]
    intro hkey
    exact hnew (hkey ▸ List.mem_map_of_mem hitem)

/-- What the loop does with an entry that is not blank. -/
theorem bindEntry_eq_ok (hentry : entry ≠ []) (hstrip : PyStr.strip entry = entry) :
    setting.bindEntry bindings entry = .ok bindings' ↔
      ∃ binding, setting.Reads entry binding ∧ binding.1 ∉ bindings.map Prod.fst ∧
        bindings' = bindings ++ [binding] := by
  have hrefuse : ∀ problem, setting.refuse problem ≠ Except.ok bindings' := fun _ h => by cases h
  rw [BindingSetting.bindEntry]
  simp only [hstrip, hentry, if_false]
  by_cases hequals : '=' ∈ entry
  · obtain ⟨workspaceId, value, rfl, hfirst⟩ := List.eq_append_cons_of_mem hequals
    obtain ⟨htake, hdrop⟩ := partition_equals value hfirst
    simp only [hequals, not_true_eq_false, if_false, htake, hdrop]
    by_cases hempty : PyStr.strip workspaceId = [] ∨ PyStr.strip value = []
    · rw [if_pos hempty]
      refine iff_of_false (hrefuse _) ?_
      rintro ⟨binding, hreads, -, -⟩
      obtain ⟨hid, hne, -, -⟩ := hreads.at_equals hfirst
      exact hempty.elim (fun h => hreads.workspaceId_ne_nil (hid ▸ h)) hne
    · obtain ⟨hid, hvalue⟩ := not_or.mp hempty
      rw [if_neg hempty]
      by_cases hsecond : '=' ∈ PyStr.strip value
      · rw [if_pos hsecond]
        refine iff_of_false (hrefuse _) ?_
        rintro ⟨binding, hreads, -, -⟩
        exact (hreads.at_equals hfirst).2.2.1 (equals_mem_strip.mp hsecond)
      · rw [if_neg hsecond]
        cases hparse : setting.parseValue (PyStr.strip value) with
        | error problem =>
          refine iff_of_false (hrefuse _) ?_
          rintro ⟨binding, hreads, -, -⟩
          rw [(hreads.at_equals hfirst).2.2.2] at hparse
          cases hparse
        | ok parsed =>
          have hreads : setting.Reads (workspaceId ++ '=' :: value)
              (PyStr.strip workspaceId, parsed) :=
            ⟨hid, workspaceId, value, rfl, hfirst, fun h => hsecond (equals_mem_strip.mpr h), rfl,
              hvalue, hparse⟩
          cases hlookup : bindings.lookup (PyStr.strip workspaceId) with
          | some first =>
            refine iff_of_false (hrefuse _) ?_
            rintro ⟨binding, hbinding, hnew, -⟩
            obtain rfl := hbinding.unique hreads
            rw [lookup_eq_none_iff_notMem.mpr hnew] at hlookup
            cases hlookup
          | none =>
            constructor
            · intro h
              exact ⟨_, hreads, lookup_eq_none_iff_notMem.mp hlookup, (Except.ok.inj h).symm⟩
            · rintro ⟨binding, hbinding, -, rfl⟩
              rw [hbinding.unique hreads]
  · rw [if_pos hequals]
    refine iff_of_false (hrefuse _) ?_
    rintro ⟨binding, ⟨-, workspaceId, value, heq, -⟩, -, -⟩
    exact hequals (heq ▸ List.mem_append_right _ List.mem_cons_self)

/-- A blank entry is passed over, and whitespace around an entry does not count. -/
theorem bindEntry_strip (rawEntry : List Char) :
    setting.bindEntry bindings rawEntry = setting.bindEntry bindings (PyStr.strip rawEntry) := by
  rw [BindingSetting.bindEntry, BindingSetting.bindEntry, PyStr.strip_strip]

theorem bindEntry_blank {rawEntry : List Char} (h : PyStr.strip rawEntry = []) :
    setting.bindEntry bindings rawEntry = .ok bindings := by
  rw [BindingSetting.bindEntry]
  simp only [h, if_true]

/-! ## The loop -/

theorem nodup_append_binding : ((bindings ++ [binding]).map Prod.fst).Nodup ↔
    binding.1 ∉ bindings.map Prod.fst ∧ (bindings.map Prod.fst).Nodup := by
  rw [List.map_append, List.map_singleton, ← List.concat_eq_append, List.nodup_concat]

/-- What the loop makes of its entries, from bindings of different workspaces. -/
theorem foldlM_bindEntry_eq_ok {rawEntries : List (List Char)}
    (hnodup : (bindings.map Prod.fst).Nodup) :
    rawEntries.foldlM setting.bindEntry bindings = .ok bindings' ↔
      ∃ more, bindings' = bindings ++ more ∧ (bindings'.map Prod.fst).Nodup ∧
        List.Forall₂ setting.Reads ((rawEntries.map PyStr.strip).filter (· ≠ [])) more := by
  induction rawEntries generalizing bindings with
  | nil =>
    constructor
    · intro h
      obtain rfl := Except.ok.inj h
      exact ⟨[], (List.append_nil _).symm, hnodup, .nil⟩
    · rintro ⟨more, rfl, -, hmore⟩
      cases hmore
      rw [List.append_nil]
      rfl
  | cons rawEntry rawEntries ih =>
    rw [List.foldlM_cons, bind_eq_ok, List.map_cons]
    by_cases hblank : PyStr.strip rawEntry = []
    · rw [List.filter_cons_of_neg (by simpa using hblank), bindEntry_blank hblank]
      simp only [Except.ok.injEq, exists_eq_left']
      exact ih hnodup
    · rw [List.filter_cons_of_pos (by simpa using hblank)]
      simp only [bindEntry_strip rawEntry, bindEntry_eq_ok hblank (PyStr.strip_strip rawEntry)]
      constructor
      · rintro ⟨_, ⟨binding, hreads, hnew, rfl⟩, hrest⟩
        have hnodup' := nodup_append_binding.mpr ⟨hnew, hnodup⟩
        obtain ⟨more, rfl, hnodup, hmore⟩ := (ih hnodup').mp hrest
        exact ⟨binding :: more, by simp, hnodup, .cons hreads hmore⟩
      · rintro ⟨more, rfl, hall, hmore⟩
        obtain ⟨binding, more, hreads, htail, rfl⟩ := List.forall₂_cons_left_iff.mp hmore
        have hsplit : bindings ++ binding :: more = (bindings ++ [binding]) ++ more := by simp
        have hnodup' : ((bindings ++ [binding]).map Prod.fst).Nodup := by
          rw [hsplit, List.map_append] at hall
          exact hall.of_append_left
        exact ⟨_, ⟨binding, hreads, (nodup_append_binding.mp hnodup').1, rfl⟩,
          (ih hnodup').mpr ⟨more, hsplit, hall, htail⟩⟩

theorem parse_eq_ok {raw : List Char} :
    setting.parse (some raw) = .ok bindings ↔
      List.Forall₂ setting.Reads (settingEntries raw) bindings ∧
        (bindings.map Prod.fst).Nodup := by
  rw [BindingSetting.parse, Option.getD_some]
  by_cases hblank : PyStr.strip raw = []
  · simp only [hblank, if_true, settingEntries_blank hblank, List.forall₂_nil_left_iff]
    constructor
    · intro h
      obtain rfl := Except.ok.inj h
      exact ⟨rfl, List.nodup_nil⟩
    · rintro ⟨rfl, -⟩
      rfl
  · simp only [hblank, if_false]
    have hnodup : (([] : List (List Char × β)).map Prod.fst).Nodup := List.nodup_nil
    rw [foldlM_bindEntry_eq_ok hnodup]
    constructor
    · rintro ⟨more, rfl, hnodup, hmore⟩
      exact ⟨hmore, hnodup⟩
    · rintro ⟨hall, hnodup⟩
      exact ⟨bindings, (List.nil_append _).symm, hnodup, hall⟩

/-- A setting is accepted exactly when its entries, without the blank ones, read as the bindings
    in their order, and no workspace is bound twice.  An entry reads as one binding at most. -/
theorem workspace_bindings_well_formed (setting : BindingSetting β) (raw : List Char)
    (bindings : List (List Char × β)) :
    (setting.parse (some raw) = .ok bindings ↔
      List.Forall₂ setting.Reads (settingEntries raw) bindings ∧
        (bindings.map Prod.fst).Nodup) ∧
      ∀ entry binding binding', setting.Reads entry binding → setting.Reads entry binding' →
        binding = binding' := by
  exact ⟨parse_eq_ok, fun _ _ _ hreads hreads' => hreads.unique hreads'⟩

/-! ## Writing a setting -/

/-- The text has no blanks at its ends, and neither of the characters that separate. -/
structure IsWord (text : List Char) : Prop where
  ne_nil : text ≠ []
  strip : PyStr.strip text = text
  equals : '=' ∉ text
  comma : ',' ∉ text

instance (text : List Char) : Decidable (IsWord text) :=
  decidable_of_iff (text ≠ [] ∧ PyStr.strip text = text ∧ '=' ∉ text ∧ ',' ∉ text)
    ⟨fun ⟨h₁, h₂, h₃, h₄⟩ => ⟨h₁, h₂, h₃, h₄⟩, fun ⟨h₁, h₂, h₃, h₄⟩ => ⟨h₁, h₂, h₃, h₄⟩⟩

/-- The entry of a binding. -/
def bindingEntry (write : β → List Char) (binding : List Char × β) : List Char :=
  binding.1 ++ '=' :: write binding.2

/-- The setting of bindings. -/
def bindingsText (write : β → List Char) (bindings : List (List Char × β)) : List Char :=
  [','].intercalate (bindings.map (bindingEntry write))

/-- A binding can be written as an entry: its two parts are words, and the value is read back. -/
structure BindingSetting.Writes (setting : BindingSetting β) (write : β → List Char)
    (binding : List Char × β) : Prop where
  workspaceId : IsWord binding.1
  value : IsWord (write binding.2)
  parse : setting.parseValue (write binding.2) = .ok binding.2

variable {write : β → List Char}

/-- Two words with an `=` between them have no blanks at their ends. -/
theorem strip_bindingEntry (h : setting.Writes write binding) :
    PyStr.strip (bindingEntry write binding) = bindingEntry write binding := by
  apply PyStr.strip_of_ends
  · intro c hc
    obtain ⟨d, rest, hid⟩ := List.exists_cons_of_ne_nil h.workspaceId.ne_nil
    simp only [bindingEntry, hid, List.cons_append, List.head?_cons, Option.mem_some_iff] at hc
    exact hc ▸ PyStr.isSpace_head_strip (h.workspaceId.strip.trans hid)
  · intro c hc
    obtain hnil | ⟨front, d, hvalue⟩ := List.eq_nil_or_concat (write binding.2)
    · exact absurd hnil h.value.ne_nil
    · rw [List.concat_eq_append] at hvalue
      have hlast : bindingEntry write binding = (binding.1 ++ '=' :: front) ++ [d] := by
        simp [bindingEntry, hvalue]
      rw [hlast, List.getLast?_concat, Option.mem_some_iff] at hc
      exact hc ▸ PyStr.isSpace_getLast_strip (h.value.strip.trans hvalue)

theorem reads_bindingEntry (h : setting.Writes write binding) :
    setting.Reads (bindingEntry write binding) binding := by
  have hvalue : PyStr.strip (write binding.2) ≠ [] := by
    rw [h.value.strip]
    exact h.value.ne_nil
  have hparse : setting.parseValue (PyStr.strip (write binding.2)) = .ok binding.2 := by
    rw [h.value.strip]
    exact h.parse
  exact ⟨h.workspaceId.ne_nil, binding.1, write binding.2, rfl, h.workspaceId.equals,
    h.value.equals, h.workspaceId.strip, hvalue, hparse⟩

/-- The entries of what is written are the entries of the bindings. -/
theorem settingEntries_bindingsText (h : ∀ binding ∈ bindings, setting.Writes write binding) :
    settingEntries (bindingsText write bindings) = bindings.map (bindingEntry write) := by
  by_cases hnil : bindings = []
  · subst hnil
    rfl
  · have hcomma : ∀ entry ∈ bindings.map (bindingEntry write), ',' ∉ entry := by
      intro entry hentry
      obtain ⟨binding, hbinding, rfl⟩ := List.mem_map.mp hentry
      simp [bindingEntry, (h binding hbinding).workspaceId.comma, (h binding hbinding).value.comma]
    rw [settingEntries, bindingsText,
      List.splitOn_intercalate ',' hcomma (by simpa using hnil), List.map_map]
    have hstrip : bindings.map (PyStr.strip ∘ bindingEntry write) =
        bindings.map (bindingEntry write) :=
      List.map_congr_left fun binding hbinding => strip_bindingEntry (h binding hbinding)
    rw [hstrip, List.filter_eq_self]
    intro entry hentry
    obtain ⟨binding, -, rfl⟩ := List.mem_map.mp hentry
    simp [bindingEntry]

/-- What is written as the bindings of different workspaces is read back as these bindings, in
    their order. -/
theorem workspace_bindings_round_trip (setting : BindingSetting β) (write : β → List Char)
    (bindings : List (List Char × β)) (hwrites : ∀ binding ∈ bindings, setting.Writes write binding)
    (hnodup : (bindings.map Prod.fst).Nodup) :
    setting.parse (some (bindingsText write bindings)) = .ok bindings := by
  rw [parse_eq_ok, settingEntries_bindingsText hwrites]
  refine ⟨?_, hnodup⟩
  rw [List.forall₂_map_left_iff, List.forall₂_same]
  intro binding hbinding
  exact reads_bindingEntry (hwrites binding hbinding)

end

/-- `support` and `handbook` bound to two workspaces. -/
theorem workspace_bindings_round_trip_packs :
    workspaceVerticalPacks.parse (some (bindingsText id
      [(['w', 's', '_', 'a'], ['s', 'u', 'p']), (['w', 's', '_', 'b'], ['h', 'b'])])) =
      .ok [(['w', 's', '_', 'a'], ['s', 'u', 'p']), (['w', 's', '_', 'b'], ['h', 'b'])] := by
  apply workspace_bindings_round_trip
  · intro binding hbinding
    simp only [List.mem_cons, List.not_mem_nil, or_false] at hbinding
    obtain rfl | rfl := hbinding
    · exact ⟨by decide, by decide, rfl⟩
    · exact ⟨by decide, by decide, rfl⟩
  · decide

/-! ## Entries without a value -/

/-- An entry is a workspace that is not listed yet. -/
theorem listEntry_eq_ok {workspaceIds workspaceIds' : List (List Char)} {rawEntry : List Char}
    (hne : PyStr.strip rawEntry ≠ []) :
    listEntry workspaceIds rawEntry = .ok workspaceIds' ↔
      '=' ∉ PyStr.strip rawEntry ∧ PyStr.strip rawEntry ∉ workspaceIds ∧
        workspaceIds' = workspaceIds ++ [PyStr.strip rawEntry] := by
  rw [listEntry]
  simp only [hne, if_false, List.contains_iff_mem]
  by_cases hequals : '=' ∈ PyStr.strip rawEntry
  · simp [hequals]
  · by_cases hmem : PyStr.strip rawEntry ∈ workspaceIds
    · simp [hequals, hmem]
    · simp [hequals, hmem, eq_comm]

theorem foldlM_listEntry_eq_ok {rawEntries workspaceIds workspaceIds' : List (List Char)}
    (hnodup : workspaceIds.Nodup) :
    rawEntries.foldlM listEntry workspaceIds = .ok workspaceIds' ↔
      workspaceIds' = workspaceIds ++ (rawEntries.map PyStr.strip).filter (· ≠ []) ∧
        workspaceIds'.Nodup ∧ ∀ entry ∈ (rawEntries.map PyStr.strip).filter (· ≠ []),
          '=' ∉ entry := by
  induction rawEntries generalizing workspaceIds with
  | nil =>
    constructor
    · intro h
      obtain rfl := Except.ok.inj h
      simpa using hnodup
    · rintro ⟨rfl, -, -⟩
      simp only [List.map_nil, List.filter_nil, List.append_nil]
      rfl
  | cons rawEntry rawEntries ih =>
    rw [List.foldlM_cons, bind_eq_ok, List.map_cons]
    by_cases hblank : PyStr.strip rawEntry = []
    · have hskip : listEntry workspaceIds rawEntry = .ok workspaceIds := by
        rw [listEntry]
        simp only [hblank, if_true]
      rw [List.filter_cons_of_neg (by simpa using hblank), hskip]
      simp only [Except.ok.injEq, exists_eq_left']
      exact ih hnodup
    · rw [List.filter_cons_of_pos (by simpa using hblank)]
      simp only [listEntry_eq_ok hblank, List.forall_mem_cons]
      constructor
      · rintro ⟨_, ⟨hequals, hnew, rfl⟩, hrest⟩
        have hnodup' : (workspaceIds ++ [PyStr.strip rawEntry]).Nodup := by
          rw [← List.concat_eq_append, List.nodup_concat]
          exact ⟨hnew, hnodup⟩
        obtain ⟨rfl, hall, hmore⟩ := (ih hnodup').mp hrest
        exact ⟨by simp, hall, hequals, hmore⟩
      · rintro ⟨rfl, hall, hequals, hmore⟩
        have hsplit : ∀ more, workspaceIds ++ PyStr.strip rawEntry :: more =
            (workspaceIds ++ [PyStr.strip rawEntry]) ++ more := by simp
        rw [hsplit] at hall
        have hnodup' := hall.of_append_left
        have hnew : PyStr.strip rawEntry ∉ workspaceIds := by
          rw [← List.concat_eq_append, List.nodup_concat] at hnodup'
          exact hnodup'.1
        exact ⟨_, ⟨hequals, hnew, rfl⟩, (ih hnodup').mpr ⟨hsplit _, hsplit _ ▸ hall, hmore⟩⟩

/-- The setting of reuse detection is accepted exactly when its entries, without the blank ones,
    are different workspaces without an `=`, and then it lists them. -/
theorem parseWorkspaceReuseDetection_eq_ok {raw : List Char} {workspaceIds : List (List Char)} :
    parseWorkspaceReuseDetection (some raw) = .ok workspaceIds ↔
      workspaceIds = settingEntries raw ∧ workspaceIds.Nodup ∧
        ∀ entry ∈ settingEntries raw, '=' ∉ entry := by
  rw [parseWorkspaceReuseDetection, Option.getD_some]
  by_cases hblank : PyStr.strip raw = []
  · simp only [hblank, if_true, settingEntries_blank hblank, List.not_mem_nil, false_imp_iff,
      implies_true, and_true]
    constructor
    · intro h
      obtain rfl := Except.ok.inj h
      exact ⟨rfl, List.nodup_nil⟩
    · rintro ⟨rfl, -⟩
      rfl
  · simp only [hblank, if_false]
    rw [foldlM_listEntry_eq_ok List.nodup_nil, List.nil_append]
    rfl

end Inherent
