import Inherent.ForStd.FirstMaximum
import Inherent.Spec.VerticalPack

/-!
# The tags of a chunk

The rules tagger gives a field of the schema the first of its values whose rules match most, and
never a value that the schema does not have.  A tag is stored as one text, and it can be read
back from it.
-/

namespace Inherent

open FirstMaximum (IsFirst)

/-! ## The rules of a field -/

section

variable {field : TagField} {name value : String} {haystack : List Char}
  {documentMetadata : List (String × String)}

/-- The loop of `_score_enum_field` forgets the patterns of the best rule. -/
theorem foldl_scoreStep (haystack : List Char) (rules : List (String × List TagPattern))
    (best : Option (String × List TagPattern) × ℕ) :
    rules.foldl (scoreStep haystack) (best.1.map Prod.fst, best.2) =
      ((rules.foldl (FirstMaximum.step fun rule => ruleScore haystack rule.2) best).1.map Prod.fst,
        (rules.foldl (FirstMaximum.step fun rule => ruleScore haystack rule.2) best).2) := by
  induction rules generalizing best with
  | nil => rfl
  | cons rule rules ih =>
    have hstep : scoreStep haystack (best.1.map Prod.fst, best.2) rule =
        ((FirstMaximum.step (fun rule => ruleScore haystack rule.2) best rule).1.map Prod.fst,
          (FirstMaximum.step (fun rule => ruleScore haystack rule.2) best rule).2) := by
      rw [scoreStep, FirstMaximum.step]
      by_cases hbetter : ruleScore haystack rule.2 > best.2
      · simp only [hbetter, if_true]
        rfl
      · simp only [hbetter, if_false]
    rw [List.foldl_cons, List.foldl_cons, hstep, ih]

/-- The value that wins: its rule matches most, and more than those before it. -/
def Wins (haystack : List Char) (rules : List (String × List TagPattern)) (value : String) :
    Prop :=
  ∃ rule, IsFirst (fun rule => ruleScore haystack rule.2) rules rule ∧
    0 < ruleScore haystack rule.2 ∧ rule.1 = value

theorem scoreEnumField_cases (haystack : List Char) (rules : List (String × List TagPattern)) :
    (scoreEnumField haystack rules = none ∧ ∀ rule ∈ rules, ruleScore haystack rule.2 = 0) ∨
      ∃ value, scoreEnumField haystack rules = some value ∧ Wins haystack rules value := by
  have hfold := foldl_scoreStep haystack rules (none, 0)
  rw [Option.map_none] at hfold
  rw [scoreEnumField, hfold]
  obtain ⟨heq, hzero⟩ | ⟨rule, heq, hpos, hfirst⟩ :=
    FirstMaximum.foldl_step (fun rule => ruleScore haystack rule.2) rules
  · exact Or.inl ⟨by rw [heq]; rfl, hzero⟩
  · refine Or.inr ⟨rule.1, ?_, rule, hfirst, hpos, rfl⟩
    rw [heq]
    simp only [Option.map_some, gt_iff_lt, hpos, if_true]

theorem Wins.unique {rules : List (String × List TagPattern)} {value' : String}
    (h : Wins haystack rules value) (h' : Wins haystack rules value') : value = value' := by
  obtain ⟨rule, hfirst, -, rfl⟩ := h
  obtain ⟨rule', hfirst', -, rfl⟩ := h'
  rw [hfirst.unique hfirst']

theorem Wins.not_zero {rules : List (String × List TagPattern)} (h : Wins haystack rules value)
    (hzero : ∀ rule ∈ rules, ruleScore haystack rule.2 = 0) : False := by
  obtain ⟨rule, hfirst, hpos, -⟩ := h
  have := hzero rule hfirst.mem
  omega

/-- When the tagger gives a field a value: the winner of its rules, `other` if they match
    nothing, or what the metadata say. -/
def TagField.Assigns (field : TagField) (name : String) (haystack : List Char)
    (documentMetadata : List (String × String)) (value : String) : Prop :=
  match field.type with
  | .enum => Wins haystack field.rules value ∨
    field.rules ≠ [] ∧ (∀ rule ∈ field.rules, ruleScore haystack rule.2 = 0) ∧
      value = fallbackValue ∧ fallbackValue ∈ field.values.getD []
  | .string | .date => documentMetadata.lookup name = some value ∧ value ≠ ""

theorem TagField.tag_eq_some :
    field.tag name haystack documentMetadata = some value ↔
      field.Assigns name haystack documentMetadata value := by
  obtain ⟨type, required, values, rules, hrules, hpatterns⟩ := field
  cases type with
  | enum =>
    by_cases hempty : rules = []
    · subst hempty
      simp [TagField.tag, TagField.Assigns, Wins, IsFirst]
    · simp only [TagField.tag, TagField.Assigns, hempty, if_false, not_false_eq_true, ne_eq,
        true_and]
      obtain ⟨hnone, hzero⟩ | ⟨winner, hsome, hwins⟩ := scoreEnumField_cases haystack rules
      · have hno : ¬ Wins haystack rules value := fun h => h.not_zero hzero
        rw [hnone, Option.none_or]
        rw [or_iff_right hno, and_iff_right hzero]
        by_cases hother : fallbackValue ∈ values.getD []
        · simp [hother, eq_comm]
        · simp [hother]
      · rw [hsome, Option.some_or, Option.some.injEq]
        constructor
        · rintro rfl
          exact Or.inl hwins
        · rintro (h | ⟨hzero, -, -⟩)
          · exact hwins.unique h
          · exact absurd hzero hwins.not_zero
  | string => simp [TagField.tag, TagField.Assigns, Option.filter_eq_some_iff]
  | date => simp [TagField.tag, TagField.Assigns, Option.filter_eq_some_iff]

end

/-! ## The tags of a chunk -/

section

variable {heading text name value : String} {schema : TagSchema}
  {documentMetadata : List (String × String)}

theorem mem_rulesTags :
    (name, value) ∈ rulesTags heading text schema documentMetadata ↔
      ∃ field, (name, field) ∈ schema.fields ∧
        field.Assigns name (heading.toList ++ '\n' :: text.toList) documentMetadata value := by
  simp only [rulesTags, List.mem_filterMap, Option.map_eq_some_iff, Prod.mk.injEq]
  constructor
  · rintro ⟨⟨name', field⟩, hfield, value', hvalue, rfl, rfl⟩
    exact ⟨field, hfield, TagField.tag_eq_some.mp hvalue⟩
  · rintro ⟨field, hfield, hassigns⟩
    exact ⟨(name, field), hfield, value, TagField.tag_eq_some.mpr hassigns, rfl, rfl⟩

/-- The tags stand in the order of the schema, and no field has two. -/
theorem names_rulesTags_sublist :
    ((rulesTags heading text schema documentMetadata).map Prod.fst).Sublist schema.names := by
  rw [rulesTags, TagSchema.names]
  induction schema.fields with
  | nil => exact List.Sublist.refl _
  | cons item fields ih =>
    rw [List.filterMap_cons, List.map_cons]
    cases item.2.tag item.1 (heading.toList ++ '\n' :: text.toList) documentMetadata with
    | none => exact ih.cons item.1
    | some value => exact ih.cons_cons item.1

theorem nodup_names_rulesTags :
    ((rulesTags heading text schema documentMetadata).map Prod.fst).Nodup :=
  names_rulesTags_sublist.nodup schema.fields_nodup

/-- A pack that loads tags a chunk by its schema: every tag is one that its field assigns, there
    is one for each field that assigns a value, in the order of the schema, and the value of an
    enum is one of its values. -/
theorem rules_tags_follow_schema {dir : PackDir} {vertical : Vertical}
    (hload : loadVertical dir = .ok vertical) (heading text : String)
    (documentMetadata : List (String × String)) :
    ((rulesTags heading text vertical.tags documentMetadata).map Prod.fst).Sublist
        vertical.tags.names ∧
      (∀ name value, (name, value) ∈ rulesTags heading text vertical.tags documentMetadata ↔
        ∃ field, (name, field) ∈ vertical.tags.fields ∧
          field.Assigns name (heading.toList ++ '\n' :: text.toList) documentMetadata value) ∧
      ∀ name value, (name, value) ∈ rulesTags heading text vertical.tags documentMetadata →
        ∀ field, (name, field) ∈ vertical.tags.fields → field.type = .enum →
          value ∈ field.values.getD [] := by
  refine ⟨names_rulesTags_sublist, fun name value => mem_rulesTags, ?_⟩
  intro name value htag field hfield htype
  obtain ⟨field', hfield', hassigns⟩ := mem_rulesTags.mp htag
  -- the schema has one field of the name
  obtain rfl : field' = field := by
    have hpair := List.inj_on_of_nodup_map vertical.tags.fields_nodup hfield' hfield rfl
    exact congrArg Prod.snd hpair
  simp only [TagField.Assigns, htype] at hassigns
  obtain ⟨rule, hfirst, -, rfl⟩ | ⟨-, -, rfl, hother⟩ := hassigns
  · have hrules := (coherent_of_loadVertical hload).2.rules _ hfield
    exact (hrules (List.ne_nil_of_mem hfirst.mem)).2 rule hfirst.mem
  · exact hother

theorem rules_tags_follow_schema_support :
    ((rulesTags "Prices" "A seat is $5." supportVertical.tags [("title", "a.pdf")]).map
        Prod.fst).Sublist supportVertical.tags.names ∧
      (∀ name value, (name, value) ∈
          rulesTags "Prices" "A seat is $5." supportVertical.tags [("title", "a.pdf")] ↔
        ∃ field, (name, field) ∈ supportVertical.tags.fields ∧
          field.Assigns name ("Prices".toList ++ '\n' :: "A seat is $5.".toList)
            [("title", "a.pdf")] value) ∧
      ∀ name value, (name, value) ∈
          rulesTags "Prices" "A seat is $5." supportVertical.tags [("title", "a.pdf")] →
        ∀ field, (name, field) ∈ supportVertical.tags.fields → field.type = .enum →
          value ∈ field.values.getD [] :=
  rules_tags_follow_schema loadVertical_supportDir "Prices" "A seat is $5." [("title", "a.pdf")]

example : rulesTags "Prices" "A seat is $5." supportVertical.tags [("title", "a.pdf")] =
    [("topic", "billing"), ("title", "a.pdf")] := by
  decide

/-! ## Stored tags -/

/-- A tag can be read back from its text if its name has no `=`. -/
theorem tagText_inj {name' value' : String} (hname : '=' ∉ name.toList)
    (hname' : '=' ∉ name'.toList) (h : tagText name value = tagText name' value') :
    name = name' ∧ value = value' := by
  have hlist : name.toList ++ '=' :: value.toList = name'.toList ++ '=' :: value'.toList := by
    have := congrArg String.toList h
    simpa [tagText] using this
  have htake : ∀ {name : String} (value : String), '=' ∉ name.toList →
      (name.toList ++ '=' :: value.toList).takeWhile (· ≠ '=') = name.toList := by
    intro name value hname
    have hall : ∀ c ∈ name.toList, decide (c ≠ '=') = true := by
      intro c hc
      apply decide_eq_true
      rintro rfl
      exact hname hc
    rw [List.takeWhile_append_of_pos hall, List.takeWhile_cons_of_neg (by simp), List.append_nil]
  have hnames : name.toList = name'.toList := by
    rw [← htake value hname, ← htake value' hname', hlist]
  rw [hnames] at hlist
  have hvalues := (List.cons.inj (List.append_cancel_left hlist)).2
  exact ⟨String.toList_inj.mp hnames, String.toList_inj.mp hvalues⟩

theorem mem_tagsAsWeaviateStrings {tags : List (String × String)} {stored : String} :
    stored ∈ tagsAsWeaviateStrings tags ↔ ∃ tag ∈ tags, tagText tag.1 tag.2 = stored := by
  simp only [tagsAsWeaviateStrings, List.mem_map, List.mem_mergeSort]

/-- The chunk without its tags. -/
def StagedChunk.untagged (chunk : StagedChunk) : StagedChunk :=
  { chunk with tags := [], tagsWeaviate := [] }

theorem untagged_tagChunk (schema : TagSchema) (documentMetadata : List (String × String))
    (chunk : StagedChunk) : (tagChunk schema documentMetadata chunk).untagged = chunk.untagged := by
  rw [tagChunk]
  split <;> rfl

/-- Tagging looks at the heading and the text, which it leaves. -/
theorem tagChunk_tagChunk (schema : TagSchema) (documentMetadata : List (String × String))
    (chunk : StagedChunk) :
    tagChunk schema documentMetadata (tagChunk schema documentMetadata chunk) =
      tagChunk schema documentMetadata chunk := by
  by_cases hempty : rulesTags chunk.sectionHeading chunk.content schema documentMetadata = []
  · have hsame : tagChunk schema documentMetadata chunk = chunk := by
      simp only [tagChunk, hempty, if_true]
    rw [hsame, hsame]
  · simp only [tagChunk, hempty, if_false]

/-- A staged chunk about a price. -/
def priceChunk : StagedChunk where
  documentId := "d1"
  content := "A seat is $5."
  chunkIndex := 0
  startChar := 0
  endChar := 13

end

end Inherent
