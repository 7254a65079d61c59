import Inherent.Native.ReplaceStore
import Inherent.Spec.DocumentIngestion

/-!
# What a replacing store leaves

The batch write puts an object under every staged index and touches no other.  Which
objects remain besides is decided by the deletes of the activity's attempts: an earlier
object under an index that is not staged stays until one of them takes it.
-/

open EventRun

namespace Inherent

/-- The objects are those of the chunks: one for each, and no others. -/
def HoldsExactObjects (objects : ObjectTable) (chunks : List StagedChunk) : Prop :=
  HoldsObjects objects chunks ∧ ∀ o ∈ objects.rows, ∃ chunk ∈ chunks, o.HoldsChunk chunk

instance (objects : ObjectTable) (chunks : List StagedChunk) :
    Decidable (HoldsExactObjects objects chunks) :=
  inferInstanceAs (Decidable (HoldsObjects objects chunks ∧ ∀ o ∈ objects.rows, _))

/-- The indices of the chunks. -/
def StagedBatch.indexList (batch : StagedBatch) : List Nat :=
  batch.chunks.map StagedChunk.chunkIndex

/-- Objects that hold every chunk hold them exactly when they are under no other index. -/
theorem holdsExactObjects_iff {objects : ObjectTable} {batch : StagedBatch}
    (h : HoldsObjects objects batch.chunks) :
    HoldsExactObjects objects batch.chunks ↔
      ∀ i, objects.Holds i → i ∈ batch.indexList := by
  constructor
  · intro hexact i hi
    obtain ⟨o, ho, rfl⟩ := UniqueTable.holds_iff.mp hi
    obtain ⟨chunk, hchunk, hholds⟩ := hexact.2 o ho
    exact List.mem_map.mpr ⟨chunk, hchunk, hholds.1.symm⟩
  · intro hindex
    refine ⟨h, ?_⟩
    intro o ho
    obtain ⟨chunk, hchunk, heq⟩ := List.mem_map.mp
      (hindex o.chunkIndex (UniqueTable.holds_iff.mpr ⟨o, ho, rfl⟩))
    obtain ⟨o', ho', hholds⟩ := h chunk hchunk
    -- the object under the index of the chunk is the one that holds it
    obtain rfl : o' = o := UniqueTable.eq_of_key_eq ho' ho (hholds.1.trans heq)
    exact ⟨chunk, hchunk, hholds⟩

/-- A batch write puts objects under staged indices only. -/
theorem holds_storeChunks_iff {input : StoreDocumentInput} {now : Timestamp}
    {batch : StagedBatch} {landed : List Bool} {objects : ObjectTable} {i : Nat}
    (hi : i ∉ batch.indexList) :
    (storeChunksWithTenant input now batch.chunks landed objects).1.Holds i ↔
      objects.Holds i := by
  have hkeys : (storeChunksWithTenant input now batch.chunks landed objects).1.Holds i ↔ _ :=
    UniqueTable.holds_putAll
  rw [hkeys, or_iff_left]
  intro hmem
  obtain ⟨o, ho, rfl⟩ := List.mem_map.mp hmem
  -- a written object is one of the batch
  obtain ⟨chunk, hchunk, rfl⟩ := List.mem_map.mp ((written_sublist _ landed).subset ho)
  exact hi (List.mem_map.mpr ⟨chunk, hchunk, rfl⟩)

namespace ReplaceSystem

/-- Where the activity is in a run: the objects under an index that is not staged are the
    earlier ones that no delete has taken. -/
structure Follows (input : StoreDocumentInput) (batch : StagedBatch) (prior : ObjectTable)
    (s : ReplaceSystem) : Prop where
  input_eq : s.input = input
  batch_eq : s.batch = batch
  rest : ∀ i ∉ batch.indexList, s.objects.Holds i ↔ prior.Holds i ∧ i ∉ s.removed

variable {input : StoreDocumentInput} {batch : StagedBatch} {prior : ObjectTable}
  {s s' : ReplaceSystem} {e : ReplaceEvent}

theorem follows_start : Follows input batch prior (start input batch prior) where
  input_eq := rfl
  batch_eq := rfl
  rest i _ := by simp [start]

/-- One event keeps track of the earlier objects. -/
theorem follows_step (h : Follows input batch prior s) (hstep : s.step e = some s') :
    Follows input batch prior s' := by
  cases e with
  | attempt =>
    simp only [step, Option.some.injEq] at hstep
    subst hstep
    exact ⟨h.input_eq, h.batch_eq, h.rest⟩
  | readStaging k found =>
    simp only [step, Option.ite_none_right_eq_some, Option.some.injEq] at hstep
    obtain ⟨-, rfl⟩ := hstep
    exact ⟨h.input_eq, h.batch_eq, h.rest⟩
  | checkFence k active =>
    simp only [step, Option.ite_none_right_eq_some, Option.some.injEq] at hstep
    obtain ⟨-, rfl⟩ := hstep
    exact ⟨h.input_eq, h.batch_eq, h.rest⟩
  | deleteObjects k indices =>
    simp only [step, Option.ite_none_right_eq_some, Option.some.injEq] at hstep
    obtain ⟨-, rfl⟩ := hstep
    refine ⟨h.input_eq, h.batch_eq, ?_⟩
    intro i hi
    -- the index is free now when its object was taken before or is taken here
    have hfilter : (s.objects.filter fun o => o.chunkIndex ∉ indices).Holds i ↔
        s.objects.Holds i ∧ i ∉ indices :=
      UniqueTable.holds_filter_key s.objects (fun i => i ∉ indices)
    rw [hfilter, h.rest i hi, List.mem_append, not_or, and_assoc]
  | writeObjects k now landed error =>
    simp only [step, Option.ite_none_right_eq_some, Option.some.injEq] at hstep
    obtain ⟨-, rfl⟩ := hstep
    refine ⟨h.input_eq, h.batch_eq, ?_⟩
    intro i hi
    simp only [h.batch_eq]
    rw [holds_storeChunks_iff hi, h.rest i hi]

/-- The objects after an attempt has returned with success are exactly the staged chunks
    when no earlier object is left under another index. -/
theorem exact_of_returnsSuccess (h : Follows input batch prior s)
    (hstep : s.step e = some s') (hsuccess : s.ReturnsSuccess e) :
    HoldsExactObjects s'.objects batch.chunks ↔
      ∀ i, prior.Holds i → i ∈ batch.indexList ∨ i ∈ s.removed := by
  obtain ⟨-, output, houtput, hok⟩ := hsuccess
  cases e with
  | attempt => cases houtput
  | readStaging k found => cases houtput
  | deleteObjects k indices => cases houtput
  | checkFence k active =>
    -- a superseded attempt does not report success
    simp only [output?, Option.mem_def, Option.ite_none_left_eq_some, Option.some.injEq]
      at houtput
    obtain ⟨-, rfl⟩ := houtput
    cases hok
  | writeObjects k now landed error =>
    simp only [output?, Option.mem_def, Option.ite_none_right_eq_some, Bool.and_eq_true]
      at houtput
    obtain ⟨⟨hstored, -⟩, -⟩ := houtput
    simp only [step, Option.ite_none_right_eq_some, Option.some.injEq] at hstep
    obtain ⟨-, rfl⟩ := hstep
    simp only [h.batch_eq] at hstored ⊢
    rw [holdsExactObjects_iff (holdsObjects_of_stored hstored)]
    constructor
    · intro hexact i hprior
      by_contra hleft
      rw [not_or] at hleft
      have hholds := (h.rest i hleft.1).mpr ⟨hprior, hleft.2⟩
      exact hleft.1 (hexact i ((holds_storeChunks_iff hleft.1).mpr hholds))
    · intro hcovered i hholds
      by_contra hi
      obtain ⟨hprior, hkept⟩ := (h.rest i hi).mp ((holds_storeChunks_iff hi).mp hholds)
      exact (hcovered i hprior).elim hi hkept

/-- Every attempt that returns with success leaves exactly the staged chunks. -/
def ReplacesExactly (input : StoreDocumentInput) (batch : StagedBatch) (prior : ObjectTable)
    (events : List ReplaceEvent) : Prop :=
  AllSteps step (fun s e => ∀ s' ∈ s.step e, s.ReturnsSuccess e →
    HoldsExactObjects s'.objects batch.chunks) (start input batch prior) events

/-- Whenever an attempt returns with success, every earlier object is under a staged index or
    has been taken by some delete since the activity was scheduled. -/
def ClearsFirst (input : StoreDocumentInput) (batch : StagedBatch) (prior : ObjectTable)
    (events : List ReplaceEvent) : Prop :=
  AllSteps step (fun s e => (s.step e).isSome → s.ReturnsSuccess e →
    ∀ o ∈ prior.rows, o.chunkIndex ∈ batch.indexList ∨ o.chunkIndex ∈ s.removed)
    (start input batch prior) events

/-- The two conditions agree on the runs from any state that follows the activity. -/
theorem allSteps_exact_iff (h : Follows input batch prior s) (events : List ReplaceEvent) :
    AllSteps step (fun s e => ∀ s' ∈ s.step e, s.ReturnsSuccess e →
        HoldsExactObjects s'.objects batch.chunks) s events ↔
      AllSteps step (fun s e => (s.step e).isSome → s.ReturnsSuccess e →
        ∀ o ∈ prior.rows, o.chunkIndex ∈ batch.indexList ∨ o.chunkIndex ∈ s.removed)
        s events := by
  induction events generalizing s with
  | nil => simp only [allSteps_nil]
  | cons e events ih =>
    cases hstep : s.step e with
    | none => simp [AllSteps, hstep]
    | some t =>
      rw [allSteps_cons hstep, allSteps_cons hstep, ih (follows_step h hstep)]
      refine and_congr_left' ?_
      simp only [hstep, Option.mem_def, Option.some.injEq, forall_eq', Option.isSome_some,
        forall_const]
      refine forall_congr' fun hsuccess => ?_
      rw [exact_of_returnsSuccess h hstep hsuccess]
      simp only [UniqueTable.holds_iff, forall_exists_index, and_imp, forall_apply_eq_imp_iff₂]

/-- Replacing is exact in a run exactly when the deletes of its attempts have cleared the
    earlier objects under indices that are not staged before an attempt reports success. -/
theorem replacesExactly_iff (input : StoreDocumentInput) (batch : StagedBatch)
    (prior : ObjectTable) (events : List ReplaceEvent) :
    ReplacesExactly input batch prior events ↔ ClearsFirst input batch prior events :=
  allSteps_exact_iff follows_start events

/-- A document of three chunks is stored again as one chunk: its delete fails, its write does
    not, and the two higher objects remain. -/
theorem not_replacesExactly_shorterVersion :
    ¬ ReplacesExactly
      { workflowRunId := "run-2", documentId := "doc", workspaceId := "ws"
        userId := "ada", filename := "notes.md", originalFilename := "notes.md"
        contentType := "text/markdown", sizeBytes := 1, storageBackend := "local"
        storagePath := "notes.md", textLength := 1, processingTimeMs := 1 }
      ⟨[{ documentId := "doc", content := "b", chunkIndex := 0, startChar := 0, endChar := 1 }],
        by decide⟩
      ⟨[0, 1, 2].map fun i =>
        { documentId := "doc", workspaceId := "ws", userId := "ada", content := "a"
          chunkIndex := i, startChar := i, endChar := i + 1, originalFilename := "notes.md"
          contentType := "text/markdown", createdAt := 1, contentHash := ⟨"a"⟩
          sourceUri := some "notes.md", sourceUrl := none, ingestedAt := 1
          contentRisk := "none", contentRiskReasons := [], chunkingStrategy := ""
          tags := [], sectionHeading := "", reuseCount := 0, turn := none }, by decide⟩
      [.attempt, .readStaging 0 true, .checkFence 0 true, .deleteObjects 0 [],
        .writeObjects 0 2 [true] false] := by
  unfold ReplacesExactly
  decide

end ReplaceSystem

end Inherent
