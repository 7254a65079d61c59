import Inherent.ForStd.EarlyExit
import Inherent.Native.VerticalPack

/-!
# What a loaded pack promises

`load_vertical` accepts a pack exactly when its files are there and agree with each other; a
pack under a name is the last one that loads, whatever else is broken; and the tools of a pack
that loads never ask their workspace for a filter that it does not have.
-/

namespace Inherent

open EarlyExit (bind_eq_ok exists_mapM_eq_some forM_eq_ok mapM_eq_ok)

/-! ## The checks -/

section

variable {α : Type} {relative : String} {tags : TagSchema}

theorem PackFile.load_eq_ok {file : PackFile α} {value : α} :
    file.load relative = .ok value ↔ file = .parsed value := by
  cases file with
  | parsed v =>
    constructor
    · intro h
      rw [Except.ok.inj h]
    · intro h
      cases h
      rfl
  | _ => exact iff_of_false (by intro h; cases h) (by intro h; cases h)

theorem sortedUnknown_eq_nil {names allowed : List String} :
    sortedUnknown names allowed = [] ↔ ∀ name ∈ names, name ∈ allowed := by
  have hsort : sortedUnknown names allowed = [] ↔ (names.filter (· ∉ allowed)).eraseDups = [] := by
    rw [← List.length_eq_zero_iff, sortedUnknown, List.length_mergeSort, List.length_eq_zero_iff]
  have hdups : (names.filter (· ∉ allowed)).eraseDups = [] ↔ names.filter (· ∉ allowed) = [] := by
    constructor
    · intro h
      apply List.eq_nil_iff_forall_not_mem.mpr
      intro name hname
      have hmem := List.mem_eraseDups.mpr hname
      rw [h] at hmem
      exact List.not_mem_nil hmem
    · intro h
      rw [h]
      rfl
  rw [hsort, hdups, List.filter_eq_nil_iff]
  simp only [decide_eq_true_eq, not_not]

/-- The limits of a tool are in order, and it filters by fields of the schema. -/
structure PackTool.Fits (tags : TagSchema) (tool : PackTool) : Prop where
  limits : tool.defaultLimit ≤ tool.maxLimit
  filters : ∀ name ∈ tool.filters, name ∈ tags.names

theorem checkTool_eq_ok {tool : PackTool} : checkTool tags tool = .ok () ↔ tool.Fits tags := by
  by_cases hlimits : tool.defaultLimit > tool.maxLimit
  · rw [checkTool, if_pos hlimits]
    refine iff_of_false (by intro h; cases h) fun h => ?_
    have := h.limits
    omega
  · by_cases hunknown : sortedUnknown tool.filters tags.names = []
    · rw [checkTool, if_neg hlimits]
      simp only [hunknown, ne_eq, not_true_eq_false, if_false, true_iff]
      exact ⟨by omega, sortedUnknown_eq_nil.mp hunknown⟩
    · rw [checkTool, if_neg hlimits]
      simp only [ne_eq, hunknown, not_false_eq_true, if_true]
      refine iff_of_false (by intro h; cases h) fun h => ?_
      exact hunknown (sortedUnknown_eq_nil.mpr h.filters)

/-- The value is one that the field may have. -/
def TagField.Admits (field : TagField) (value : TagValue) : Prop :=
  match field.type with
  | .enum => value ∈ (field.values.getD []).map TagValue.text
  | .string => True
  | .date => ∃ isoformat, value = .date isoformat

theorem TagField.check_eq_ok {field : TagField} {i : Nat} {name : String} {value : TagValue} :
    field.check i name value = .ok () ↔ field.Admits value := by
  obtain ⟨type, required, values, rules, hrules, hpatterns⟩ := field
  cases type with
  | enum =>
    by_cases hmem : value ∈ (values.getD []).map TagValue.text
    · simp only [TagField.check, TagField.Admits, hmem, not_true_eq_false, and_false, if_false]
    · simp [TagField.check, TagField.Admits, hmem]
  | string => simp [TagField.check, TagField.Admits]
  | date => cases value <;> simp [TagField.check, TagField.Admits]

/-- Every tag of the example is one of the schema, with a value that it may have. -/
def TaggerExample.Fits (tags : TagSchema) (item : TaggerExample) : Prop :=
  ∀ tag ∈ item.tags, ∃ field, tags.fields.lookup tag.1 = some field ∧ field.Admits tag.2

theorem checkExample_eq_ok {item : TaggerExample × Nat} :
    checkExample tags item = .ok () ↔ item.1.Fits tags := by
  rw [checkExample, forM_eq_ok]
  refine forall₂_congr fun tag _ => ?_
  cases hlookup : tags.fields.lookup tag.1 with
  | none => simp
  | some field => simp [TagField.check_eq_ok]

/-- Only an enum has rules, and each of them is about one of its values. -/
def TagField.RulesFit (field : TagField) : Prop :=
  field.rules ≠ [] → field.type = .enum ∧ ∀ rule ∈ field.rules, rule.1 ∈ field.values.getD []

theorem checkRules_eq_ok {item : String × TagField} :
    checkRules item = .ok () ↔ item.2.RulesFit := by
  obtain ⟨name, field⟩ := item
  by_cases hrules : field.rules = []
  · simp [checkRules, TagField.RulesFit, hrules]
  · by_cases htype : field.type = .enum
    · by_cases hunknown : sortedUnknown (field.rules.map Prod.fst) (field.values.getD []) = []
      · have hall := sortedUnknown_eq_nil.mp hunknown
        simp only [List.forall_mem_map] at hall
        simp only [checkRules, hrules, if_false, htype, ne_eq, not_true_eq_false, hunknown,
          true_iff]
        exact fun _ => ⟨htype, hall⟩
      · simp only [checkRules, hrules, if_false, htype, ne_eq, not_true_eq_false, hunknown,
          not_false_eq_true, if_true]
        refine iff_of_false (by intro h; cases h) fun h => hunknown ?_
        apply sortedUnknown_eq_nil.mpr
        simpa only [List.forall_mem_map] using (h hrules).2
    · simp only [checkRules, hrules, if_false, ne_eq, htype, not_false_eq_true, if_true]
      exact iff_of_false (by intro h; cases h) fun h => htype (h hrules).1

end

/-! ## Loading -/

/-- The parts of the pack are the values of the files that its manifest names. -/
structure Vertical.IsReadFrom (vertical : Vertical) (dir : PackDir) : Prop where
  manifest : dir.manifest = .parsed vertical.manifest
  tags : dir.tags vertical.manifest.tags = .parsed vertical.tags
  tools : List.Forall₂ (fun path tool => dir.tool path = .parsed tool) vertical.manifest.tools
    vertical.tools
  taggerExamples : dir.taggerExamples vertical.manifest.taggerExamples =
    .parsed vertical.taggerExamples
  chunking : dir.chunking vertical.manifest.chunking = .parsed vertical.chunking

/-- The files of the pack agree with each other. -/
structure Vertical.Coherent (vertical : Vertical) : Prop where
  tools : ∀ tool ∈ vertical.tools, tool.Fits vertical.tags
  examples : ∀ item ∈ vertical.taggerExamples.examples, item.Fits vertical.tags
  rules : ∀ field ∈ vertical.tags.fields, field.2.RulesFit

theorem coherent_of_loadVertical {dir : PackDir} {vertical : Vertical}
    (h : loadVertical dir = .ok vertical) : vertical.IsReadFrom dir ∧ vertical.Coherent := by
  obtain ⟨manifest, hmanifest, h⟩ := bind_eq_ok.mp h
  obtain ⟨tags, htags, h⟩ := bind_eq_ok.mp h
  obtain ⟨tools, htools, h⟩ := bind_eq_ok.mp h
  obtain ⟨taggerExamples, hexamples, h⟩ := bind_eq_ok.mp h
  obtain ⟨_, hcheckTools, h⟩ := bind_eq_ok.mp h
  obtain ⟨_, hcheckExamples, h⟩ := bind_eq_ok.mp h
  obtain ⟨_, hcheckRules, h⟩ := bind_eq_ok.mp h
  obtain ⟨chunking, hchunking, h⟩ := bind_eq_ok.mp h
  obtain rfl := Except.ok.inj h
  constructor
  · exact ⟨PackFile.load_eq_ok.mp hmanifest, PackFile.load_eq_ok.mp htags,
      (mapM_eq_ok.mp htools).imp fun _ _ => PackFile.load_eq_ok.mp,
      PackFile.load_eq_ok.mp hexamples, PackFile.load_eq_ok.mp hchunking⟩
  · refine ⟨fun tool htool => checkTool_eq_ok.mp (forM_eq_ok.mp hcheckTools tool htool),
      fun item hitem => ?_,
      fun field hfield => checkRules_eq_ok.mp (forM_eq_ok.mp hcheckRules field hfield)⟩
    obtain ⟨i, hi, rfl⟩ := List.mem_iff_getElem.mp hitem
    exact checkExample_eq_ok.mp (forM_eq_ok.mp hcheckExamples _ (List.mem_zipIdx_iff_getElem?.mpr
      (List.getElem?_eq_getElem hi) : (taggerExamples.examples[i], i) ∈ _))

theorem loadVertical_of_coherent {dir : PackDir} {vertical : Vertical}
    (hread : vertical.IsReadFrom dir) (hfits : vertical.Coherent) :
    loadVertical dir = .ok vertical := by
  -- one file or one loop of checks after the other, in the order of the source
  refine bind_eq_ok.mpr ⟨_, PackFile.load_eq_ok.mpr hread.manifest, ?_⟩
  refine bind_eq_ok.mpr ⟨_, PackFile.load_eq_ok.mpr hread.tags, ?_⟩
  refine bind_eq_ok.mpr
    ⟨_, mapM_eq_ok.mpr (hread.tools.imp fun _ _ => PackFile.load_eq_ok.mpr), ?_⟩
  refine bind_eq_ok.mpr ⟨_, PackFile.load_eq_ok.mpr hread.taggerExamples, ?_⟩
  refine bind_eq_ok.mpr
    ⟨(), forM_eq_ok.mpr fun tool htool => checkTool_eq_ok.mpr (hfits.tools tool htool), ?_⟩
  refine bind_eq_ok.mpr ⟨(), forM_eq_ok.mpr fun item hitem => checkExample_eq_ok.mpr
    (hfits.examples item.1 (List.mem_of_getElem? (List.mem_zipIdx_iff_getElem?.mp hitem))), ?_⟩
  refine bind_eq_ok.mpr
    ⟨(), forM_eq_ok.mpr fun field hfield => checkRules_eq_ok.mpr (hfits.rules field hfield), ?_⟩
  exact bind_eq_ok.mpr ⟨_, PackFile.load_eq_ok.mpr hread.chunking, rfl⟩

/-- `load_vertical` accepts a pack exactly when the files that its manifest names are there and
    agree with each other, and its parts are their values. -/
theorem loaded_packs_are_coherent {dir : PackDir} {vertical : Vertical} :
    loadVertical dir = .ok vertical ↔ vertical.IsReadFrom dir ∧ vertical.Coherent := by
  constructor
  · exact coherent_of_loadVertical
  · rintro ⟨hread, hfits⟩
    exact loadVertical_of_coherent hread hfits

/-! ### A pack -/

/-- A tool of the pack. -/
def supportTool : PackTool where
  name := "search_topics"
  filters := ["topic"]
  defaultLimit := 5
  maxLimit := 10
  description := "Searches sections of a topic."
  name_ok := by decide
  description_length := by decide
  defaultLimit_mem := by decide
  maxLimit_mem := by decide

/-- A pack with a rule for prices. -/
def supportVertical : Vertical where
  manifest := {
    name := "support", version := "1", description := "", requiresCore := ">=1"
    chunking := "chunking.yaml", tags := "tags.yaml", taggerExamples := "examples.yaml"
    tools := ["search.yaml"], name_ok := by decide, tools_ne_nil := by decide }
  chunking := {
    splitAtLevel := 3, maxTokens := 400
    headingPatterns := [{ level := 3, matchNumber := fun _ => none, level_ge := by decide
                          level_le := by decide }]
    splitAtLevel_ge := by decide, splitAtLevel_le := by decide, maxTokens_pos := by decide
    headingPatterns_ne_nil := by simp }
  tags := {
    fields := [
      ("topic", { type := .enum, values := some ["billing", "other"]
                  rules := [("billing", [{ pattern := "\\$", findall := List.count '$' }])]
                  rules_nodup := by decide
                  patterns_ne_nil := by simp }),
      ("title", { type := .string, rules_nodup := by decide, patterns_ne_nil := by simp })]
    fields_nodup := by decide
    fields_ne_nil := by simp }
  taggerExamples := {
    examples := [{ text := "It costs $5.", tags := [("topic", .text "billing")]
                   text_ne_empty := by decide }]
    examples_ne_nil := by simp }
  tools := [supportTool]

/-- Its directory. -/
def supportDir : PackDir where
  manifest := .parsed supportVertical.manifest
  tags _ := .parsed supportVertical.tags
  tool _ := .parsed supportTool
  taggerExamples _ := .parsed supportVertical.taggerExamples
  chunking _ := .parsed supportVertical.chunking

theorem loadVertical_supportDir : loadVertical supportDir = .ok supportVertical := by
  refine loadVertical_of_coherent ⟨rfl, rfl, .cons rfl .nil, rfl, rfl⟩ ⟨?_, ?_, ?_⟩
  · intro tool htool
    obtain rfl : tool = supportTool := List.mem_singleton.mp htool
    exact ⟨by decide, by decide⟩
  · intro item hitem
    obtain rfl := List.mem_singleton.mp hitem
    intro tag htag
    obtain rfl := List.mem_singleton.mp htag
    exact ⟨_, rfl, by simp [TagField.Admits]⟩
  · intro field hfield
    obtain rfl | hfield := List.mem_cons.mp hfield
    · exact fun _ => ⟨rfl, by simp⟩
    · obtain rfl := List.mem_singleton.mp hfield
      exact fun h => absurd rfl h

/-! ## Discovery -/

/-- The name and the value of a pack that has loaded. -/
def foundPack : Except PackFailure Vertical → Option (String × Vertical)
  | .ok vertical => some (vertical.manifest.name, vertical)
  | .error _ => none

/-- The error of a source that has failed. -/
def failedSource (source : String) : Except PackFailure Vertical → Option (String × PackFailure)
  | .ok _ => none
  | .error e => some (source, e)

/-- The packs that load, in the order in which they are found. -/
def loadedPacks (eps : List PackEntryPoint) (children : List PackChild) :
    List (String × Vertical) :=
  (eps.filterMap fun ep => foundPack (ep.load.bind loadVertical)) ++
    (sortedChildren children).filterMap fun child => child.load.bind foundPack

/-- The sources that fail. -/
def failedSources (eps : List PackEntryPoint) (children : List PackChild) :
    List (String × PackFailure) :=
  (eps.filterMap fun ep => failedSource ep.name (ep.load.bind loadVertical)) ++
    (sortedChildren children).filterMap fun child => child.load.bind (failedSource child.name)

/-- Loading the child raises something that discovery does not catch. -/
def PackChild.Raises (child : PackChild) : Prop :=
  ∃ relative message, child.load = some (.error (.unreadable relative message))

section

variable {children : List PackChild} {child : PackChild} {r : DiscoveryResult}

theorem discoverChild_of_raises (h : child.Raises) : ∃ e, discoverChild r child = .error e := by
  obtain ⟨relative, message, hload⟩ := h
  exact ⟨_, by rw [discoverChild, hload]⟩

/-- A child that is passed over, found or failed. -/
theorem discoverChild_of_not_raises (h : ¬ child.Raises) :
    discoverChild r child = .ok
      ⟨r.packs.putAll (child.load.bind foundPack).toList,
        r.errors.putAll (child.load.bind (failedSource child.name)).toList⟩ := by
  rw [discoverChild]
  cases hload : child.load with
  | none => rfl
  | some outcome =>
    cases outcome with
    | ok vertical => rfl
    | error e =>
      cases e with
      | vertical e => rfl
      | unreadable relative message => exact absurd ⟨relative, message, hload⟩ h

theorem discoverEntryPoint_eq (ep : PackEntryPoint) :
    discoverEntryPoint r ep =
      ⟨r.packs.putAll (foundPack (ep.load.bind loadVertical)).toList,
        r.errors.putAll (failedSource ep.name (ep.load.bind loadVertical)).toList⟩ := by
  rw [discoverEntryPoint]
  cases ep.load.bind loadVertical with
  | ok vertical => rfl
  | error e => rfl

/-- The children one after the other. -/
theorem foldlM_discoverChild {cs : List PackChild} (h : ∀ child ∈ cs, ¬ child.Raises) :
    cs.foldlM discoverChild r = .ok
      ⟨r.packs.putAll (cs.filterMap fun child => child.load.bind foundPack),
        r.errors.putAll
          (cs.filterMap fun child => child.load.bind (failedSource child.name))⟩ := by
  induction cs generalizing r with
  | nil => rfl
  | cons c cs ih =>
    rw [List.foldlM_cons, discoverChild_of_not_raises (h c List.mem_cons_self)]
    refine (ih fun child hchild => h child (List.mem_cons_of_mem _ hchild)).trans ?_
    rw [List.filterMap_cons, List.filterMap_cons]
    cases c.load.bind foundPack <;> cases c.load.bind (failedSource c.name) <;> rfl

theorem foldlM_discoverChild_of_raises {cs : List PackChild} (hchild : child ∈ cs)
    (h : child.Raises) : ∃ e, cs.foldlM discoverChild r = .error e := by
  induction cs generalizing r with
  | nil => exact absurd hchild List.not_mem_nil
  | cons c cs ih =>
    rw [List.foldlM_cons]
    cases hstep : discoverChild r c with
    | error e => exact ⟨e, rfl⟩
    | ok next =>
      obtain rfl | hmem := List.mem_cons.mp hchild
      · obtain ⟨e, he⟩ := discoverChild_of_raises (r := r) h
        rw [hstep] at he
        cases he
      · exact ih hmem

theorem foldl_discoverEntryPoint (eps : List PackEntryPoint) :
    eps.foldl discoverEntryPoint r =
      ⟨r.packs.putAll (eps.filterMap fun ep => foundPack (ep.load.bind loadVertical)),
        r.errors.putAll
          (eps.filterMap fun ep => failedSource ep.name (ep.load.bind loadVertical))⟩ := by
  induction eps generalizing r with
  | nil => rfl
  | cons ep eps ih =>
    rw [List.foldl_cons, ih, discoverEntryPoint_eq, List.filterMap_cons, List.filterMap_cons]
    cases foundPack (ep.load.bind loadVertical) <;>
      cases failedSource ep.name (ep.load.bind loadVertical) <;> rfl

theorem mem_sortedChildren : child ∈ sortedChildren children ↔ child ∈ children :=
  (List.mergeSort_perm children _).mem_iff

/-- Discovery finds the packs that load, each under the name of its manifest, the directory's
    after those of the entry points. -/
theorem discoverAllPacks_of_not_raises (eps : List PackEntryPoint)
    (h : ∀ child ∈ children, ¬ child.Raises) :
    ∃ found, discoverAllPacks eps (some children) = .ok found ∧
      (∀ name, found.packs.find? name =
        (loadedPacks eps children).reverse.find? fun item => item.1 = name) ∧
      ∀ source, found.errors.find? source =
        (failedSources eps children).reverse.find? fun item => item.1 = source := by
  have hfold : discoverPacks (some children) = _ :=
    foldlM_discoverChild fun child hchild => h child (mem_sortedChildren.mp hchild)
  have hall : discoverAllPacks eps (some children) = _ := bind_eq_ok.mpr ⟨_, hfold, rfl⟩
  refine ⟨_, hall, fun name => ?_, fun source => ?_⟩
  · dsimp only [discoverEntryPointPacks]
    rw [UniqueTable.find?_putAll, UniqueTable.find?_reverse_rows, foldl_discoverEntryPoint,
      UniqueTable.find?_putAll, UniqueTable.find?_putAll]
    simp only [DiscoveryResult.empty, UniqueTable.find?_empty, Option.or_none, loadedPacks,
      List.reverse_append, List.find?_append]
  · dsimp only [discoverEntryPointPacks]
    rw [UniqueTable.find?_putAll, UniqueTable.find?_reverse_rows, foldl_discoverEntryPoint,
      UniqueTable.find?_putAll, UniqueTable.find?_putAll]
    simp only [DiscoveryResult.empty, UniqueTable.find?_empty, Option.or_none, failedSources,
      List.reverse_append, List.find?_append]

theorem discoverAllPacks_of_raises (eps : List PackEntryPoint) (hchild : child ∈ children)
    (h : child.Raises) :
    ∃ e, discoverAllPacks eps (some children) = .error e := by
  obtain ⟨e, he⟩ := foldlM_discoverChild_of_raises (r := DiscoveryResult.empty)
    (mem_sortedChildren.mpr hchild) h
  refine ⟨e, ?_⟩
  have hpacks : discoverPacks (some children) = .error e := he
  rw [discoverAllPacks, hpacks]
  rfl

end

/-! ## The tools -/

section

variable {vertical : Vertical}

theorem exists_lookup_of_mem_names {tags : TagSchema} {name : String} (h : name ∈ tags.names) :
    ∃ field, tags.fields.lookup name = some field := by
  obtain ⟨item, hitem, rfl⟩ := List.mem_map.mp h
  exact Option.isSome_iff_exists.mp (List.lookup_isSome_iff.mpr ⟨item, hitem, by simp⟩)

/-- The loop over fields that the schema has. -/
theorem foldlM_addFilterProperty {names : List String} (t : ToolProperties)
    (h : ∀ name ∈ names, name ∈ vertical.tags.names) :
    ∃ u, names.foldlM (addFilterProperty vertical) t = some u ∧
      ∀ name ∈ names, ∃ field, vertical.tags.fields.lookup name = some field ∧
        u.find? name = some (name, field.property) := by
  -- the last write under a name decides, and all of them write the same
  have hkeeps : ∀ (names : List String) (t : ToolProperties) (name : String) (field : TagField),
      (∀ name ∈ names, name ∈ vertical.tags.names) →
      vertical.tags.fields.lookup name = some field →
      t.find? name = some (name, field.property) →
      ∃ u, names.foldlM (addFilterProperty vertical) t = some u ∧
        u.find? name = some (name, field.property) := by
    intro names
    induction names with
    | nil =>
      intro t name field _ _ ht
      exact ⟨t, rfl, ht⟩
    | cons head names ih =>
      intro t name field hnames hfield ht
      obtain ⟨headField, hhead⟩ := exists_lookup_of_mem_names (hnames head List.mem_cons_self)
      rw [List.foldlM_cons, addFilterProperty, hhead]
      refine ih _ name field (fun n hn => hnames n (List.mem_cons_of_mem _ hn)) hfield ?_
      by_cases heq : name = head
      · obtain rfl : field = headField := by
          rw [heq, hhead] at hfield
          exact (Option.some.inj hfield).symm
        rw [heq]
        exact UniqueTable.find?_put_self t (head, field.property)
      · exact (UniqueTable.find?_put_of_ne t heq).trans ht
  induction names generalizing t with
  | nil => exact ⟨t, rfl, fun _ hname => absurd hname List.not_mem_nil⟩
  | cons head names ih =>
    have hrest : ∀ name ∈ names, name ∈ vertical.tags.names :=
      fun name hname => h name (List.mem_cons_of_mem _ hname)
    obtain ⟨headField, hhead⟩ := exists_lookup_of_mem_names (h head List.mem_cons_self)
    obtain ⟨u, hu, hall⟩ := ih (t.put (head, headField.property)) hrest
    have hfold : (head :: names).foldlM (addFilterProperty vertical) t = some u := by
      rw [List.foldlM_cons, addFilterProperty, hhead]
      exact hu
    refine ⟨u, hfold, fun name hname => ?_⟩
    obtain rfl | hmem := List.mem_cons.mp hname
    · obtain ⟨u', hu', hkept⟩ := hkeeps names _ name headField hrest hhead
        (UniqueTable.find?_put_self t (name, headField.property))
      obtain rfl : u = u' := Option.some.inj (hu.symm.trans hu')
      exact ⟨headField, hhead, hkept⟩
    · exact hall name hmem

/-- The arguments of a pack's tool make a request that the search accepts. -/
theorem buildSearchRequest_searchArguments (tool : PackTool) {arguments : ToolArguments}
    (hne : 1 ≤ arguments.query.length) (hlength : arguments.query.length ≤ 1000) :
    ∃ request, buildSearchRequest (tool.searchArguments arguments) = some request ∧
      1 ≤ request.limit ∧ (request.limit : Int) ≤ tool.maxLimit ∧
      request.filters = (tool.searchArguments arguments).filters := by
  have hmax := tool.maxLimit_mem
  have hlimit : 1 ≤ max 1 (min tool.maxLimit (arguments.limit.getD tool.defaultLimit)) ∧
      max 1 (min tool.maxLimit (arguments.limit.getD tool.defaultLimit)) ≤ tool.maxLimit := by
    omega
  have halpha : ∀ alpha ∈ (tool.searchArguments arguments).alpha, 0 ≤ alpha ∧ alpha ≤ 1 := by
    intro alpha halpha
    cases halpha
  have hmode : (tool.searchArguments arguments).searchMode.getD "semantic" ∈
      ["semantic", "hybrid", "keyword"] :=
    (show "semantic" ∈ ["semantic", "hybrid", "keyword"] by decide)
  refine ⟨_, if_pos ⟨hne, hlength, hlimit.1, hlimit.2.trans (hmax.2.trans (by decide)),
    le_refl (0 : ℚ), zero_le_one, hmode, halpha⟩, ?_, ?_, rfl⟩
  · show 1 ≤ (max 1 (min tool.maxLimit (arguments.limit.getD tool.defaultLimit))).toNat
    omega
  · show ((max 1 (min tool.maxLimit (arguments.limit.getD tool.defaultLimit))).toNat : Int) ≤ _
    omega

theorem validateTagFilters_of_mem {declared : List String} {filters : TagFilters}
    (h : ∀ item ∈ filters, item.1 ∈ declared) :
    validateTagFilters (some declared) (some filters) = .ok () := by
  have hunknown : (filters.map Prod.fst).filter (fun field => field ∉ declared) = [] := by
    apply List.filter_eq_nil_iff.mpr
    intro field hfield
    obtain ⟨item, hitem, rfl⟩ := List.mem_map.mp hfield
    simpa using h item hitem
  rw [validateTagFilters]
  simp only [Option.getD_some, hunknown, ne_eq, not_true_eq_false, if_false, ite_self]

end

end Inherent
