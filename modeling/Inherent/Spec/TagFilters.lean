import Inherent.Native.TagSearch

/-!
# What a tag filter admits

A filter on a field admits every chunk with a tag that shares a word with the field's name
or with a wanted value, and nothing after the query looks at the tags again.  So the
filters of a request are exact on a tenant when each of its chunks that is admitted by
words carries the wanted tags.
-/

namespace Inherent

open WordTokens

/-- The chunk has, for each filtered field, a tag that is one of the wanted ones. -/
def StoredChunk.CarriesTags (chunk : StoredChunk) (filters : TagFilters) : Prop :=
  ∀ item ∈ filters, ∃ value ∈ item.2.values, tagText item.1 value ∈ chunk.tagTexts

instance (chunk : StoredChunk) (filters : TagFilters) :
    Decidable (chunk.CarriesTags filters) :=
  inferInstanceAs (Decidable (∀ item ∈ filters, ∃ value ∈ item.2.values, _ ∈ _))

/-- The tag has a word of its field or value in common with the wanted field and value. -/
def SharesWord (tokenization : WordTokenization) (field value : String)
    (tag : String × String) : Prop :=
  ∃ w ∈ tokenization.words field.toList ++ tokenization.words value.toList,
    w ∈ tokenization.words tag.1.toList ++ tokenization.words tag.2.toList

instance (tokenization : WordTokenization) (field value : String) (tag : String × String) :
    Decidable (SharesWord tokenization field value tag) :=
  inferInstanceAs (Decidable (∃ w ∈ _ ++ _, w ∈ _ ++ _))

/-- The chunk has, for each filtered field, a tag that shares a word with a wanted one. -/
def StoredChunk.AdmittedByWords (tokenization : WordTokenization) (chunk : StoredChunk)
    (filters : TagFilters) : Prop :=
  ∀ item ∈ filters, ∃ value ∈ item.2.values, ∃ tag ∈ chunk.tags,
    SharesWord tokenization item.1 value tag

instance (tokenization : WordTokenization) (chunk : StoredChunk) (filters : TagFilters) :
    Decidable (chunk.AdmittedByWords tokenization filters) :=
  inferInstanceAs (Decidable (∀ item ∈ filters, ∃ value ∈ item.2.values,
    ∃ tag ∈ chunk.tags, SharesWord tokenization item.1 value tag))

/-- The chunks of the tenant that the answer may hold. -/
def QueryOutcome.chunks : QueryOutcome → List StoredChunk
  | .ranked chunks => chunks.map Prod.fst
  | .notReady => []
  | .fails => []

/-- Every result of every search with the filters carries the wanted tags. -/
def TagFiltersExact (tokenization : WordTokenization) (packFields : Option (List String))
    (filters : TagFilters) (stored : List StoredChunk) : Prop :=
  ∀ (settings : SearchSettings) (request : SearchRequest) (outcome : QueryOutcome),
    request.filters = some filters → outcome.chunks ⊆ stored →
      ∀ hits, search tokenization settings packFields request outcome = .ok hits →
        ∀ hit ∈ hits, hit.chunk.CarriesTags filters

/-! ## Words of a tag -/

/-- The words of a tag are those of its field and of its value. -/
theorem words_tagText (tokenization : WordTokenization) (field value : String) :
    tokenization.words (tagText field value).toList =
      tokenization.words field.toList ++ tokenization.words value.toList := by
  have htext : (tagText field value).toList = field.toList ++ '=' :: value.toList := by
    simp [tagText]
  have hequals : tokenization.isWord '=' = false :=
    (tokenization.isWord_ascii '=' (by decide)).trans (by decide)
  rw [htext, tokenization.words_append_cons _ _ hequals]

/-- An operand on the tags holds of the chunks with a tag that shares a word. -/
theorem holds_tags_iff {tokenization : WordTokenization} {field : String}
    {value : FilterValue} {chunk : StoredChunk} :
    WhereOperand.Holds tokenization
        { path := .tags, values := value.values.map (tagText field) } chunk ↔
      ∃ v ∈ value.values, ∃ tag ∈ chunk.tags, SharesWord tokenization field v tag := by
  simp only [WhereOperand.Holds, StoredChunk.property, StoredChunk.tagTexts, List.mem_map,
    exists_exists_and_eq_and, Tokenizer.Meets, words_tagText, SharesWord]

/-- A chunk tagged with a filtered field is admitted whatever the tag's value is. -/
theorem sharesWord_of_field {tokenization : WordTokenization} {field value stored : String}
    (hfield : tokenization.words field.toList ≠ []) :
    SharesWord tokenization field value (field, stored) := by
  obtain ⟨w, hw⟩ := List.exists_mem_of_ne_nil _ hfield
  exact ⟨w, List.mem_append_left _ hw, List.mem_append_left _ hw⟩

/-! ## What follows the query takes from its hits -/

theorem subset_diversifyRound (room : Nat) (buckets : List (List SearchHit)) :
    (diversifyRound room buckets).1 ⊆ buckets.flatten ∧
      (diversifyRound room buckets).2.flatten ⊆ buckets.flatten := by
  induction buckets generalizing room with
  | nil => simp [diversifyRound]
  | cons bucket buckets ih =>
    cases room with
    | zero => simp [diversifyRound]
    | succ room =>
      cases bucket with
      | nil =>
        obtain ⟨htaken, hrest⟩ := ih (room + 1)
        simpa [diversifyRound] using ⟨htaken, hrest⟩
      | cons hit hits =>
        obtain ⟨htaken, hrest⟩ := ih room
        simp only [diversifyRound, List.flatten_cons, List.cons_append]
        constructor
        · apply List.cons_subset.mpr ⟨List.mem_cons_self, _⟩
          intro other hother
          exact List.mem_cons_of_mem _ (List.mem_append_right _ (htaken hother))
        · intro other hother
          rcases List.mem_append.mp hother with hother | hother
          · exact List.mem_cons_of_mem _ (List.mem_append_left _ hother)
          · exact List.mem_cons_of_mem _ (List.mem_append_right _ (hrest hother))

theorem subset_diversifyLoop (rounds room : Nat) (buckets : List (List SearchHit)) :
    diversifyLoop rounds room buckets ⊆ buckets.flatten := by
  induction rounds generalizing room buckets with
  | zero => simp [diversifyLoop]
  | succ rounds ih =>
    unfold diversifyLoop
    split
    · exact List.nil_subset _
    · obtain ⟨htaken, hrest⟩ := subset_diversifyRound room buckets
      exact List.append_subset.mpr ⟨htaken, List.Subset.trans (ih _ _) hrest⟩

theorem subset_diversifyByDocument (hits : List SearchHit) (limit : Nat) :
    diversifyByDocument hits limit ⊆ hits := by
  unfold diversifyByDocument
  split
  · exact List.nil_subset _
  · split
    · exact List.Subset.refl _
    · apply List.Subset.trans (subset_diversifyLoop _ _ _)
      intro hit hhit
      obtain ⟨bucket, hbucket, hmem⟩ := List.mem_flatten.mp hhit
      obtain ⟨documentId, -, rfl⟩ := List.mem_map.mp hbucket
      exact (List.mem_filter.mp hmem).1

/-- A boost keeps the chunks of the hits. -/
theorem exists_of_mem_applyReuseBoost {settings : SearchSettings} {hits : List SearchHit}
    {hit : SearchHit} (h : hit ∈ applyReuseBoost settings hits) :
    ∃ hit' ∈ hits, hit'.chunk = hit.chunk := by
  unfold applyReuseBoost at h
  split at h
  · exact ⟨hit, h, rfl⟩
  · obtain ⟨hit', hmem, rfl⟩ := List.mem_map.mp (List.mem_mergeSort.mp h)
    exact ⟨hit', hmem, rfl⟩

/-- A hit after the filters is a served chunk. -/
theorem exists_of_mem_postFilter {settings : SearchSettings} {request : SearchRequest}
    {chunks : List (StoredChunk × Relevance)} {hit : SearchHit}
    (h : hit ∈ postFilter settings request chunks) :
    ∃ item ∈ chunks, item.1 = hit.chunk := by
  obtain ⟨item, hitem, hsome⟩ := List.mem_filterMap.mp h
  refine ⟨item, hitem, ?_⟩
  simp only at hsome
  split at hsome
  · cases hsome
  · split at hsome
    · cases hsome
    · cases hsome
      rfl

/-- A served chunk meets every operand of the query. -/
theorem holds_of_mem_served {tokenization : WordTokenization} {settings : SearchSettings}
    {request : SearchRequest} {ranked : List (StoredChunk × Relevance)}
    {item : StoredChunk × Relevance}
    (h : item ∈ served tokenization settings request ranked) :
    item ∈ ranked ∧ ∀ operand ∈ whereOperands request, operand.Holds tokenization item.1 := by
  have hmem := List.mem_filter.mp (List.mem_of_mem_take h)
  exact ⟨hmem.1, of_decide_eq_true hmem.2⟩

/-- A result is a chunk of the answer that the query's operands admit. -/
theorem mem_of_mem_searchWeaviate {tokenization : WordTokenization} {settings : SearchSettings}
    {request : SearchRequest} {outcome : QueryOutcome} {hits : List SearchHit}
    (hsearch : searchWeaviate tokenization settings request outcome = some hits)
    {hit : SearchHit} (h : hit ∈ hits) :
    hit.chunk ∈ outcome.chunks ∧
      ∀ operand ∈ whereOperands request, operand.Holds tokenization hit.chunk := by
  cases outcome with
  | fails => cases hsearch
  | notReady =>
    cases hsearch
    cases h
  | ranked chunks =>
    simp only [searchWeaviate, Option.some.injEq] at hsearch
    have hboosted : hit ∈ applyReuseBoost settings
        (postFilter settings request (served tokenization settings request chunks)) := by
      subst hsearch
      split at h
      · exact subset_diversifyByDocument _ _ h
      · exact List.mem_of_mem_take h
    -- back through the boost and the filters to the served chunk
    obtain ⟨hit', hmem, hchunk⟩ := exists_of_mem_applyReuseBoost hboosted
    obtain ⟨item, hitem, hitem'⟩ := exists_of_mem_postFilter hmem
    obtain ⟨hranked, hholds⟩ := holds_of_mem_served hitem
    rw [← hchunk, ← hitem']
    exact ⟨List.mem_map_of_mem hranked, hholds⟩

/-! ## Exactness -/

/-- The tag operands of a query admit a chunk by words. -/
theorem admittedByWords_iff {tokenization : WordTokenization} {request : SearchRequest}
    {filters : TagFilters} (hfilters : request.filters = some filters) {chunk : StoredChunk} :
    chunk.AdmittedByWords tokenization filters ↔
      ∀ operand ∈ tagFilterOperands request.filters, operand.Holds tokenization chunk := by
  simp only [tagFilterOperands, hfilters, Option.getD_some, List.forall_mem_map, holds_tags_iff,
    StoredChunk.AdmittedByWords]

/-- A request for one result with the filters and nothing else. -/
def oneResult (filters : TagFilters) : SearchRequest where
  limit := 1
  minScore := 0
  documentIds := none
  filters := some filters
  limit_mem := ⟨le_rfl, by decide⟩

/-- Settings without diversification and boosts. -/
def plainSettings : SearchSettings where
  enableDiversification := false
  diversificationOverFetchMultiplier := 1
  roundScore := id
  reuseBoost := none

/-- A chunk that is admitted by words is a result of some search. -/
theorem search_of_admittedByWords {tokenization : WordTokenization}
    {packFields : Option (List String)} {filters : TagFilters} {chunk : StoredChunk}
    (haccepted : validateTagFilters packFields (some filters) = .ok ())
    (h : chunk.AdmittedByWords tokenization filters) :
    search tokenization plainSettings packFields (oneResult filters)
      (.ranked [(chunk, ⟨1, 0, 0⟩)]) = .ok [{ chunk, score := 1 }] := by
  have hoperands : ∀ operand ∈ whereOperands (oneResult filters),
      operand.Holds tokenization chunk := by
    have hfilters : (oneResult filters).filters = some filters := rfl
    have htags := (admittedByWords_iff hfilters).mp h
    simpa [whereOperands, oneResult] using htags
  have hserved : served tokenization plainSettings (oneResult filters) [(chunk, ⟨1, 0, 0⟩)] =
      [(chunk, ⟨1, 0, 0⟩)] := by
    unfold served
    rw [List.filter_cons_of_pos (by simpa using hoperands)]
    rfl
  have hhits : postFilter plainSettings (oneResult filters) [(chunk, ⟨1, 0, 0⟩)] =
      [{ chunk, score := 1 }] := by
    simp [postFilter, oneResult, plainSettings, Relevance.resolve]
  have hvalid : validateTagFilters packFields (oneResult filters).filters = .ok () := haccepted
  unfold search
  rw [hvalid]
  simp only [searchWeaviate, hserved, hhits]
  rfl

/-- The filters are exact on the stored chunks exactly when each chunk that they admit by
    words carries the wanted tags. -/
theorem tagFiltersExact_iff (tokenization : WordTokenization)
    (packFields : Option (List String)) (filters : TagFilters) (stored : List StoredChunk)
    (haccepted : validateTagFilters packFields (some filters) = .ok ()) :
    TagFiltersExact tokenization packFields filters stored ↔
      ∀ chunk ∈ stored, chunk.AdmittedByWords tokenization filters →
        chunk.CarriesTags filters := by
  constructor
  · intro h chunk hchunk hadmitted
    have hsubset : (QueryOutcome.ranked [(chunk, ⟨1, 0, 0⟩)]).chunks ⊆ stored := by
      simpa [QueryOutcome.chunks] using hchunk
    exact h plainSettings (oneResult filters) _ rfl hsubset _
      (search_of_admittedByWords haccepted hadmitted) _ List.mem_cons_self
  · intro h settings request outcome hfilters hsubset hits hsearch hit hhit
    unfold search at hsearch
    rw [hfilters, haccepted] at hsearch
    simp only at hsearch
    split at hsearch
    · cases hsearch
    · rename_i hits' hweaviate
      cases hsearch
      obtain ⟨hchunk, hholds⟩ := mem_of_mem_searchWeaviate hweaviate hhit
      apply h hit.chunk (hsubset hchunk)
      rw [admittedByWords_iff hfilters]
      intro operand hoperand
      exact hholds operand (List.mem_append_right _ hoperand)

/-! ### A chunk of another section -/

/-- A chunk tagged with another value of the filtered field. -/
def securityChunk : StoredChunk where
  chunkId := "c1"
  documentId := "d1"
  tags := [("section_type", "security")]
  reuseCount := 0

/-- A filter on `section_type=pricing`. -/
def pricingFilter : TagFilters := [("section_type", .one "pricing")]

/-- The filter on one section type returns a chunk of another. -/
theorem not_tagFiltersExact_securityChunk :
    ¬ TagFiltersExact .ascii (some ["section_type"]) pricingFilter [securityChunk] := by
  intro h
  have hadmitted : securityChunk.AdmittedByWords .ascii pricingFilter := by decide
  have hcarries := h plainSettings (oneResult pricingFilter)
    (.ranked [(securityChunk, ⟨1, 0, 0⟩)]) rfl (by simp [QueryOutcome.chunks]) _
    (search_of_admittedByWords rfl hadmitted) _ List.mem_cons_self
  exact absurd hcarries (by decide)

/-- A chunk of the wanted section, and one that shares no word with the filter. -/
def pricingChunks : List StoredChunk :=
  [{ chunkId := "c2", documentId := "d1", tags := [("section_type", "pricing")]
     reuseCount := 0 },
   { chunkId := "c3", documentId := "d1", tags := [("region", "eu")], reuseCount := 0 }]

/-- On these chunks the filter is exact. -/
theorem tagFiltersExact_pricingChunks :
    TagFiltersExact .ascii (some ["section_type", "region"]) pricingFilter pricingChunks :=
  (tagFiltersExact_iff .ascii _ _ _ rfl).mpr (by decide)

end Inherent
