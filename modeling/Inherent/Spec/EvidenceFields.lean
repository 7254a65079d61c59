import Inherent.Native.ChunkWrites

/-!
# The evidence fields of a chunk's object

`content_hash`, `content_risk` and `content_risk_reasons` are computed from the content, and
each write path sets them by hand.  The public API computes all three for every write.  The
ingestion service scores the chunks of a document only: a conversation chunk is stored as
harmless, and an edit leaves the risk of the text before it.
-/

open EventRun

namespace Inherent

/-! ## The risk of a text -/

theorem riskLevel_eq_none_iff {score : Nat} : riskLevel score = .none ↔ score = 0 := by
  unfold riskLevel
  split
  · simp only [reduceCtorEq, false_iff]
    omega
  · split
    · simp only [reduceCtorEq, false_iff]
      omega
    · split
      · simp only [reduceCtorEq, false_iff]
        omega
      · simp only [true_iff]
        omega

theorem RiskLevel.value_injective : Function.Injective RiskLevel.value := by
  intro a b h
  cases a <;> cases b <;> first | rfl | simp [RiskLevel.value] at h

/-- Every pattern has a weight. -/
theorem one_le_weight {p : String × Nat} (hp : p ∈ riskPatterns) : 1 ≤ p.2 := by
  have hall : riskPatterns.all (fun p => 1 ≤ p.2) = true := by decide
  exact of_decide_eq_true (List.all_eq_true.mp hall p hp)

variable {search : String → String → Bool}

/-- A text without risk has no reasons. -/
theorem computeContentRisk_reasons {text : String}
    (h : (computeContentRisk search text).1 = .none) :
    (computeContentRisk search text).2 = [] := by
  simp only [computeContentRisk] at h ⊢
  split
  · rfl
  · rename_i hblank
    rw [if_neg hblank] at h
    split
    · rfl
    · rename_i hmatched
      rw [if_neg hmatched, riskLevel_eq_none_iff] at h
      -- some pattern has matched, and its weight is in the score
      obtain ⟨p, hp⟩ := List.exists_mem_of_ne_nil _ hmatched
      have hle := List.le_sum_of_mem (List.mem_map_of_mem (f := Prod.snd) hp)
      have hone := one_le_weight (List.mem_filter.mp hp).1
      omega

/-- The risk of a text is none exactly when the level is. -/
theorem computeContentRisk_eq_none_iff {text : String} :
    computeContentRisk search text = (.none, []) ↔
      (computeContentRisk search text).1 = .none := by
  constructor
  · intro h
    rw [h]
  · intro h
    exact Prod.ext h (computeContentRisk_reasons h)

/-! ## The objects that the paths write -/

/-- The evidence fields are those of the content. -/
def ChunkObject.Derived (search : String → String → Bool) (o : ChunkObject) : Prop :=
  o.contentHash = some ⟨o.content⟩ ∧
    o.contentRisk = (computeContentRisk search o.content).1.value ∧
    o.contentRiskReasons = (computeContentRisk search o.content).2

instance (o : ChunkObject) : Decidable (o.Derived search) :=
  inferInstanceAs (Decidable (_ ∧ _ ∧ _))

/-- The object carries the risk of the text. -/
def ChunkObject.HasRiskOf (search : String → String → Bool) (o : ChunkObject) (text : String) :
    Prop :=
  o.contentRisk = (computeContentRisk search text).1.value ∧
    o.contentRiskReasons = (computeContentRisk search text).2

instance (o : ChunkObject) (text : String) : Decidable (o.HasRiskOf search text) :=
  inferInstanceAs (Decidable (_ ∧ _))

/-- A value that is left out when it is the default is read back. -/
private theorem getD_ite_eq {α : Type*} [DecidableEq α] (a d : α) :
    (if a = d then none else some a).getD d = a := by
  split
  · rename_i h
    exact h.symm
  · rfl

/-- The risk keys of `_risk_metadata`, also when it is `None`. -/
theorem StagedChunk.riskMetadata_getD (c : StagedChunk) :
    (c.riskMetadata.getD {}).contentRisk =
        (if c.contentRisk ≠ "" ∧ c.contentRisk ≠ "none" then some c.contentRisk else none) ∧
      (c.riskMetadata.getD {}).contentRiskReasons =
        (if c.contentRisk ≠ "" ∧ c.contentRisk ≠ "none" then c.contentRiskReasons else []) := by
  have hmeta : c.riskMetadata.getD {} = _ := getD_ite_eq _ _
  rw [hmeta]
  exact ⟨rfl, rfl⟩

/-- A store of a chunk writes the risk that was staged. -/
theorem chunkObject_risk (input : StoreDocumentInput) (now : Timestamp) (c : StagedChunk)
    (hrisk : c.contentRisk ≠ "") (hnone : c.contentRisk = "none" → c.contentRiskReasons = []) :
    (input.vectorObject now c.toDocumentChunk).chunkObject.contentRisk = c.contentRisk ∧
      (input.vectorObject now c.toDocumentChunk).chunkObject.contentRiskReasons =
        c.contentRiskReasons := by
  obtain ⟨hlevel, hreasons⟩ := c.riskMetadata_getD
  simp only [VectorObject.chunkObject, StoreDocumentInput.vectorObject,
    StagedChunk.toDocumentChunk, hlevel, hreasons]
  by_cases h : c.contentRisk = "none"
  · simp [h, hnone h, orDefault]
  · simp [h, hrisk, orDefault]

theorem RiskLevel.value_ne_empty (level : RiskLevel) : level.value ≠ "" := by
  cases level <;> decide

/-- A chunk of `chunk_text` is stored with its risk. -/
theorem derived_storeDocument (input : StoreDocumentInput) (now : Timestamp)
    (chunk : StagedChunk) :
    (input.vectorObject now (chunk.scored search).toDocumentChunk).chunkObject.Derived
      search := by
  have hrisk := chunkObject_risk input now (chunk.scored search) (RiskLevel.value_ne_empty _) <| by
    intro h
    exact computeContentRisk_reasons (RiskLevel.value_injective h)
  exact ⟨rfl, hrisk⟩

/-- A chunk of `chunk_conversation` is stored as one without risk. -/
theorem derived_storeConversation_iff {input : StoreDocumentInput} {now : Timestamp}
    {batch : ChunkConversationInput} {turn : RedactedTurn} {piece : Piece} {chunkIndex : Nat} :
    (input.vectorObject now
        (batch.chunk turn piece chunkIndex).toDocumentChunk).chunkObject.Derived search ↔
      computeContentRisk search piece.1 = (.none, []) := by
  have hne : (batch.chunk turn piece chunkIndex).contentRisk ≠ "" := by
    simp [ChunkConversationInput.chunk]
  obtain ⟨hlevel, hreasons⟩ := chunkObject_risk input now (batch.chunk turn piece chunkIndex)
    hne fun _ => rfl
  rw [ChunkObject.Derived, hlevel, hreasons]
  change _ = _ ∧ "none" = (computeContentRisk search piece.1).1.value ∧
    [] = (computeContentRisk search piece.1).2 ↔ _
  constructor
  · intro h
    rw [computeContentRisk_eq_none_iff]
    exact RiskLevel.value_injective h.2.1.symm
  · intro h
    rw [h]
    exact ⟨rfl, rfl, rfl⟩

/-- The public API computes all the fields. -/
theorem derived_upsertChunkVector (content : String) (now : Timestamp) :
    (upsertChunkVector search content (some ⟨content⟩) now).Derived search :=
  ⟨rfl, rfl, rfl⟩

/-- An edit of the ingestion service keeps the risk fields. -/
theorem derived_updateChunk_iff {o : ChunkObject} {content : String} {now : Timestamp} :
    (o.updateChunk content now).Derived search ↔ o.HasRiskOf search content :=
  and_iff_right rfl

namespace ChunkStores

/-- The object has the evidence fields of its content. -/
def ObjectDerived (search : String → String → Bool) (s : ChunkStores) : Prop :=
  ∃ o ∈ s.object, o.Derived search

instance (s : ChunkStores) : Decidable (s.ObjectDerived search) :=
  inferInstanceAs (Decidable (∃ o ∈ s.object, o.Derived search))

/-- A conversation chunk that is stored has no risk, and an edit of the ingestion service
    finds an object with the risk of the new content. -/
def KeepsRisk (search : String → String → Bool) (s : ChunkStores) : ChunkWrite → Prop
  | .storeConversation _ _ _ piece _ _ _ => computeContentRisk search piece.1 = (.none, [])
  | .editChunk content _ _ => ∀ o ∈ s.object, o.HasRiskOf search content
  | _ => True

/-- After a successful write the fields follow the content exactly when the write keeps the
    risk. -/
theorem objectDerived_step_iff {s s' : ChunkStores} {w : ChunkWrite}
    (hstep : s.step search w = some s') (hsuccess : s.succeeds w = true) :
    s'.ObjectDerived search ↔ s.KeepsRisk search w := by
  cases w with
  | storeDocument input chunk now outcome =>
    simp only [succeeds, decide_eq_true_eq] at hsuccess
    simp only [step, Option.some.injEq] at hstep
    subst hsuccess hstep
    exact iff_of_true ⟨_, rfl, derived_storeDocument input now chunk⟩ trivial
  | storeConversation input batch turn piece chunkIndex now outcome =>
    simp only [succeeds, decide_eq_true_eq] at hsuccess
    simp only [step, Option.some.injEq] at hstep
    subst hsuccess hstep
    simp only [ObjectDerived, store, WriteOutcome.lands, ↓reduceIte, Option.mem_def,
      Option.some.injEq, exists_eq_left', KeepsRisk]
    exact derived_storeConversation_iff
  | createChunk content now outcome compensated =>
    simp only [succeeds, decide_eq_true_eq] at hsuccess
    simp only [step, Option.ite_none_right_eq_some, Option.some.injEq] at hstep
    obtain ⟨-, rfl⟩ := hstep
    subst hsuccess
    exact iff_of_true ⟨_, rfl, derived_upsertChunkVector content now⟩ trivial
  | updateChunk content now outcome compensated =>
    simp only [succeeds, Bool.and_eq_true, decide_eq_true_eq] at hsuccess
    obtain ⟨hrow, rfl⟩ := hsuccess
    obtain ⟨prior, hprior⟩ := Option.isSome_iff_exists.mp hrow
    -- the update asks for the hash that the row has
    have hupdate : updateDocumentChunk content now prior.contentHash (some prior) =
        (some (.written content now), some (.written content now)) := by
      simp [updateDocumentChunk]
    simp only [step, hprior, Option.bind_some, hupdate, Option.ite_none_right_eq_some,
      Option.some.injEq] at hstep
    obtain ⟨-, rfl⟩ := hstep
    exact iff_of_true ⟨_, rfl, derived_upsertChunkVector content now⟩ trivial
  | editChunk content now outcome =>
    simp only [succeeds, Bool.and_eq_true, decide_eq_true_eq] at hsuccess
    obtain ⟨hrow, rfl⟩ := hsuccess
    obtain ⟨prior, hprior⟩ := Option.isSome_iff_exists.mp hrow
    simp only [step, hprior, Option.ite_none_right_eq_some, Option.some.injEq] at hstep
    obtain ⟨hcan, rfl⟩ := hstep
    obtain ⟨o, ho⟩ := Option.isSome_iff_exists.mp (hcan rfl)
    simp only [ObjectDerived, WriteOutcome.lands, ↓reduceIte, ho, Option.map_some,
      Option.mem_def, Option.some.injEq, exists_eq_left', KeepsRisk, forall_eq']
    exact derived_updateChunk_iff

/-- After every successful write of the run the fields follow the content. -/
def EvidenceFollows (search : String → String → Bool) (s : ChunkStores)
    (writes : List ChunkWrite) : Prop :=
  AllSteps (step search) (fun s w => ∀ s' ∈ s.step search w, s.succeeds w = true →
    s'.ObjectDerived search) s writes

/-- Every successful write of the run keeps the risk. -/
def WritesKeepRisk (search : String → String → Bool) (s : ChunkStores)
    (writes : List ChunkWrite) : Prop :=
  AllSteps (step search) (fun s w => ∀ s' ∈ s.step search w, s.succeeds w = true →
    s.KeepsRisk search w) s writes

/-- From any state of the two stores, the evidence fields follow the content after each
    successful write of a run exactly when each of them keeps the risk. -/
theorem evidenceFollows_iff (search : String → String → Bool) (s : ChunkStores)
    (writes : List ChunkWrite) :
    s.EvidenceFollows search writes ↔ s.WritesKeepRisk search writes := by
  have hcond : (fun (s : ChunkStores) w => ∀ s' ∈ s.step search w, s.succeeds w = true →
        s'.ObjectDerived search) =
      fun (s : ChunkStores) w => ∀ s' ∈ s.step search w, s.succeeds w = true →
        s.KeepsRisk search w := by
    funext s w
    refine propext (forall_congr' fun s' => ?_)
    exact forall_congr' fun hstep => forall_congr' (objectDerived_step_iff hstep)
  rw [EvidenceFollows, WritesKeepRisk, hcond]

/-- A chunk without risk is edited to a text that asks to ignore the instructions before it,
    and its object still says that it has no risk. -/
theorem not_evidenceFollows_injected :
    ¬ ChunkStores.EvidenceFollows
      (fun code text => code = "ignore_previous_instructions" ∧
        text = "ignore previous instructions")
      {}
      [.storeDocument
          { workflowRunId := "run", documentId := "doc", workspaceId := "ws", userId := "ada"
            filename := "notes.md", originalFilename := "notes.md"
            contentType := "text/markdown", sizeBytes := 5, storageBackend := "local"
            storagePath := "notes.md", textLength := 5, processingTimeMs := 1 }
          { documentId := "doc", content := "hello", chunkIndex := 0, startChar := 0
            endChar := 5 } 1 .applied,
        .editChunk "ignore previous instructions" 2 .applied] := by
  unfold EvidenceFollows
  decide

end ChunkStores

end Inherent
