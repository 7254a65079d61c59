import Inherent.Native.EmbedBatches
import Inherent.Spec.EmbedRetry

/-!
# Batched embedding is pointwise

Both embedding functions collect the answers of their batches (`ScatterBatches.collect_ok`) and
place the vectors at the texts that are not blank (`ScatterBatches.scatter_some`).  The order in
which the batches complete, and how they are cut, leaves no trace in the result.
-/

namespace Inherent

open ScatterBatches

variable {F : Type}

/-- The provider returns one vector for each input. -/
def BatchRun.OneVectorPerInput (run : BatchRun F) : Prop :=
  ∀ b inputs n vecs, run.embedBatch b inputs n = .ok vecs → vecs.length = inputs.length

/-- The provider's vector of an input depends on the input only. -/
def BatchRun.Pointwise (run : BatchRun F) (vector : String → List F) : Prop :=
  ∀ b inputs n vecs, run.embedBatch b inputs n = .ok vecs → vecs = inputs.map vector

theorem BatchRun.Pointwise.oneVectorPerInput {run : BatchRun F} {vector : String → List F}
    (h : run.Pointwise vector) : run.OneVectorPerInput := by
  intro b inputs n vecs hvecs
  rw [h b inputs n vecs hvecs, List.length_map]

/-! ## The texts that are embedded -/

theorem mem_keepIdx {texts : List String} {p : Nat} {text : String} (ht : texts[p]? = some text) :
    p ∈ keepIdx texts ↔ isBlankText text = false := by
  have hp : p < texts.length := (List.getElem?_eq_some_iff.mp ht).1
  rw [keepIdx, List.mem_filter, List.mem_range, ht]
  simp [hp]

theorem lt_of_mem_keepIdx {texts : List String} {p : Nat} (h : p ∈ keepIdx texts) :
    p < texts.length :=
  List.mem_range.mp (List.mem_of_mem_filter h)

theorem nodup_keepIdx (texts : List String) : (keepIdx texts).Nodup := List.nodup_range.filter _

@[simp] theorem length_keepTexts (texts : List String) :
    (keepTexts texts).length = (keepIdx texts).length := List.length_map ..

/-- A text that is embedded is the input at its rank. -/
theorem getElem?_keepTexts {texts : List String} {p : Nat} (hp : p ∈ keepIdx texts) :
    (keepTexts texts)[(keepIdx texts).idxOf p]? = texts[p]? := by
  have hlt := List.idxOf_lt_length_of_mem hp
  have htext := lt_of_mem_keepIdx hp
  rw [keepTexts, List.getElem?_map, List.getElem?_eq_getElem hlt, List.getElem_idxOf hlt,
    List.getElem?_eq_getElem htext, Option.map_some, List.getElem?_eq_getElem htext,
    Option.getD_some]

/-! ## One path -/

section

variable {run : BatchRun F} {size : Nat} {maxRetries : ℤ} {retryBudgetS : ℚ}
  {texts : List String}

/-- A batch is answered with what one of its attempts returns. -/
theorem batchAnswer_eq (run : BatchRun F) (size : Nat) (maxRetries : ℤ) (retryBudgetS : ℚ)
    (texts : List String) (b : Nat) :
    ∃ n, batchAnswer run size maxRetries retryBudgetS texts b =
      run.embedBatch b (inputs size (keepTexts texts) b) n :=
  ⟨_, (retryLoop_spec _ _ _).result⟩

variable [Zero F]

/-- The vectors that are returned for the texts that are not blank, by their rank, at those
    texts. -/
structure PlacedVectors (dimension : Nat) (texts : List String)
    (returned : Nat → Option (List F)) (out : List (List F)) : Prop where
  length : out.length = texts.length
  text : ∀ p text, texts[p]? = some text →
    out[p]? = if isBlankText text then some (zeroVector dimension)
      else returned ((keepIdx texts).idxOf p)

/-- What an embedding of the texts comes to, for the answers of its batches. -/
structure EmbedOutcome (dimension size : Nat) (texts : List String)
    (answer : Nat → Except EmbedException (List (List F)))
    (result : Except EmbedError (List (List F))) : Prop where
  returns : ∀ vs : Nat → List (List F),
    (∀ b < (batches size (keepTexts texts)).length, answer b = .ok (vs b)) →
    ∃ out, result = .ok out ∧
      PlacedVectors dimension texts (fun k => (vs (k / size))[k % size]?) out
  fails : ∀ b < (batches size (keepTexts texts)).length, ∀ e, answer b = .error e →
    ∃ c < (batches size (keepTexts texts)).length, ∃ e',
      answer c = .error e' ∧ result = .error (.batch e')

theorem placeVectors_ok (dimension : Nat) {results returned : Nat → Option (List F)}
    (hresults : ∀ k < (keepTexts texts).length, results k = returned k)
    (hreturned : ∀ k < (keepTexts texts).length, (returned k).isSome) :
    ∃ out, placeVectors dimension texts results = .ok out ∧
      PlacedVectors dimension texts returned out := by
  rw [length_keepTexts] at hresults hreturned
  have hsome : ∀ k < (keepIdx texts).length, returned k = some ((returned k).getD []) := by
    intro k hk
    obtain ⟨v, hv⟩ := Option.isSome_iff_exists.mp (hreturned k hk)
    rw [hv, Option.getD_some]
  have hrecorded : ∀ i < (keepIdx texts).length,
      results (0 + i) = some ((returned (0 + i)).getD []) := fun i hi => by
    rw [Nat.zero_add, hresults i hi]
    exact hsome i hi
  obtain ⟨out, hscatter, hlength, hout⟩ := scatter_some (fun k => (returned k).getD []) 0
    hrecorded (nodup_keepIdx texts) (texts.map fun _ => zeroVector dimension)
  rw [List.length_map] at hlength hout
  refine ⟨out, by rw [placeVectors, hscatter], hlength, fun p text htext => ?_⟩
  have hp : p < texts.length := (List.getElem?_eq_some_iff.mp htext).1
  rw [hout p hp]
  by_cases hblank : isBlankText text = true
  · rw [if_pos hblank, if_neg (by rw [mem_keepIdx htext, hblank]; simp)]
    simp [hp]
  · have hmem : p ∈ keepIdx texts := (mem_keepIdx htext).mpr (by simpa using hblank)
    rw [if_neg hblank, if_pos hmem, Nat.zero_add]
    exact (hsome _ (List.idxOf_lt_length_of_mem hmem)).symm

/-- The batches, answered in any order, and the end of both functions. -/
theorem embedOutcome_afterBatches (dimension : Nat) (hsize : 0 < size)
    (hone : run.OneVectorPerInput) {order : List Nat}
    (horder : order.Perm (List.range (batches size (keepTexts texts)).length)) :
    EmbedOutcome dimension size texts (batchAnswer run size maxRetries retryBudgetS texts)
      (afterBatches dimension texts
        (collect (batchAnswer run size maxRetries retryBudgetS texts) size order
          fun _ => none)) where
  returns vs hvs := by
    have hlt : ∀ b ∈ order, b < (batches size (keepTexts texts)).length := fun b hb =>
      List.mem_range.mp (horder.mem_iff.mp hb)
    have hlength : ∀ b ∈ order,
        (vs b).length = min size ((keepTexts texts).length - b * size) := by
      intro b hb
      obtain ⟨n, hn⟩ := batchAnswer_eq run size maxRetries retryBudgetS texts b
      rw [hvs b (hlt b hb)] at hn
      rw [hone b _ n _ hn.symm, length_inputs]
    obtain ⟨filled, hcollect, hfilled⟩ :=
      collect_ok hsize (fun b hb => hvs b (hlt b hb)) hlength fun _ => none
    -- every kept text is in a batch, and every batch is in the order
    have hmem : ∀ k < (keepTexts texts).length, k / size ∈ order := fun k hk =>
      horder.mem_iff.mpr (List.mem_range.mpr (div_lt_length_batches hsize hk))
    rw [hcollect]
    apply placeVectors_ok
    · intro k hk
      rw [hfilled, if_pos ⟨hmem k hk, hk⟩]
    · intro k hk
      have hdiv := Nat.div_add_mod' k size
      have hmod := Nat.mod_lt k hsize
      have hin : k % size < (vs (k / size)).length := by
        rw [hlength _ (hmem k hk)]
        omega
      rw [List.getElem?_eq_getElem hin]
      rfl
  fails b hb e he := by
    obtain ⟨c, hc, e', hc', hcollect⟩ :=
      collect_error size (horder.mem_iff.mpr (List.mem_range.mpr hb)) he fun _ => none
    refine ⟨c, List.mem_range.mp (horder.mem_iff.mp hc), e', hc', ?_⟩
    rw [hcollect]
    rfl

/-- Without a text to embed there is no batch. -/
theorem order_eq_nil (hsize : 0 < size) (hkeep : keepIdx texts = []) {order : List Nat}
    (horder : order.Perm (List.range (batches size (keepTexts texts)).length)) : order = [] := by
  have hcount : (batches size (keepTexts texts)).length = 0 := by
    rw [length_batches, length_keepTexts, hkeep, List.length_nil, Nat.div_eq_zero_iff]
    omega
  rw [hcount] at horder
  exact horder.eq_nil

theorem afterBatches_blank (dimension : Nat) (hkeep : keepIdx texts = []) :
    afterBatches dimension texts
        (.ok fun _ => none : Except EmbedException (Nat → Option (List F))) =
      .ok (texts.map fun _ => zeroVector dimension) := by
  rw [afterBatches, placeVectors, hkeep]
  rfl

end

section

variable [Zero F]

/-- `embed_texts_batched` with its batches in some order. -/
theorem embedTextsBatched_eq (dimension : Nat) {run : BatchRun F} {texts : List String}
    {batchSize : ℤ} (maxConcurrency maxRetries : ℤ) (retryBudgetS : ℚ)
    (horder : run.order.Perm
      (List.range (batches (max 1 batchSize).toNat (keepTexts texts)).length)) :
    ∃ order : List Nat, order.Perm
        (List.range (batches (max 1 batchSize).toNat (keepTexts texts)).length) ∧
      embedTextsBatched dimension run texts batchSize maxConcurrency maxRetries retryBudgetS =
        afterBatches dimension texts
          (collect (batchAnswer run (max 1 batchSize).toNat maxRetries retryBudgetS texts)
            (max 1 batchSize).toNat order fun _ => none) := by
  have hsize : 0 < (max 1 batchSize).toNat := by omega
  by_cases hkeep : keepIdx texts = []
  · refine ⟨run.order, horder, ?_⟩
    rw [order_eq_nil hsize hkeep horder, collect, afterBatches_blank dimension hkeep]
    unfold embedTextsBatched
    split
    · next hempty => rw [hempty, List.map_nil]
    · rfl
  · have hne : texts ≠ [] := fun h => hkeep (by rw [h]; rfl)
    unfold embedTextsBatched
    rw [if_neg hne, if_neg hkeep]
    simp only
    split
    · exact ⟨_, List.Perm.refl _, rfl⟩
    · exact ⟨_, horder, rfl⟩

/-- Progress does not change what is collected. -/
theorem collectWithProgress_map (answer : Nat → Except EmbedException (List (List F)))
    (size total : Nat) (order : List Nat) (results : Nat → Option (List F)) (completed : Nat) :
    (collectWithProgress answer size total order results completed).map Prod.fst =
      collect answer size order results := by
  induction order generalizing results completed with
  | nil => rfl
  | cons b order ih =>
    unfold collectWithProgress collect
    cases answer b with
    | error e => rfl
    | ok vecs =>
      simp only
      rw [← ih (record (b * size) vecs results) (completed + 1)]
      cases collectWithProgress answer size total order (record (b * size) vecs results)
        (completed + 1) <;> rfl

theorem defaultBatchSize_pos : 0 < defaultBatchSize := by decide

theorem envAtLeastOne_toNat_pos {default : Nat} (hdefault : 0 < default) (raw : Option ℤ) :
    0 < (envAtLeastOne default raw).toNat := by
  unfold envAtLeastOne
  split <;> omega

/-- `embed_texts_with_progress` without its progress. -/
theorem embedTextsWithProgress_eq (env : EmbedEnv) {run : BatchRun F} {texts : List String}
    (horder : run.order.Perm (List.range (batches
      (envAtLeastOne defaultBatchSize env.batchSize).toNat (keepTexts texts)).length)) :
    (embedTextsWithProgress env run texts).map Prod.fst =
      afterBatches env.embeddingDim texts
        (collect (batchAnswer run (envAtLeastOne defaultBatchSize env.batchSize).toNat
          (envAtLeastOne defaultBatchMaxRetries env.batchMaxRetries) batchRetrySleepBudgetS texts)
          (envAtLeastOne defaultBatchSize env.batchSize).toNat run.order fun _ => none) := by
  have hsize := envAtLeastOne_toNat_pos defaultBatchSize_pos env.batchSize
  by_cases hkeep : keepIdx texts = []
  · rw [order_eq_nil hsize hkeep horder, collect, afterBatches_blank env.embeddingDim hkeep]
    unfold embedTextsWithProgress
    split
    · next hempty =>
      rw [hempty]
      rfl
    · rfl
  · have hne : texts ≠ [] := fun h => hkeep (by rw [h]; rfl)
    unfold embedTextsWithProgress
    rw [if_neg hne, if_neg hkeep, ← collectWithProgress_map _ _
      (batches (envAtLeastOne defaultBatchSize env.batchSize).toNat (keepTexts texts)).length
      _ _ 0]
    simp only
    cases collectWithProgress _ _ _ run.order (fun _ => none) 0 with
    | error e => rfl
    | ok collected =>
      have hfst (placed : Except EmbedError (List (List F))) :
          (placed.map fun out => (out, collected.2)).map Prod.fst = placed := by
        cases placed <;> rfl
      exact hfst (afterBatches env.embeddingDim texts (.ok collected.1))

/-! ## Both paths -/

/-- The vector of a text: the zero vector when the text is blank. -/
def textVector (dimension : Nat) (vector : String → List F) (text : String) : List F :=
  if isBlankText text then zeroVector dimension else vector text

/-- An embedding of the texts with batches of one size. -/
structure EmbedSpec (dimension : Nat) (run : BatchRun F) (size : Nat) (maxRetries : ℤ)
    (retryBudgetS : ℚ) (texts : List String) (result : Except EmbedError (List (List F))) :
    Prop where
  outcome : EmbedOutcome dimension size texts
    (batchAnswer run size maxRetries retryBudgetS texts) result
  pointwise : ∀ vector, run.Pointwise vector →
    (∀ b < (batches size (keepTexts texts)).length,
      ∃ vecs, batchAnswer run size maxRetries retryBudgetS texts b = .ok vecs) →
    result = .ok (texts.map (textVector dimension vector))

/-- Vectors that are placed from a pointwise provider are the vectors of the texts. -/
theorem PlacedVectors.eq_map {dimension size : Nat} (hsize : 0 < size) {texts : List String}
    {vector : String → List F} {vs : Nat → List (List F)}
    (hvs : ∀ b < (batches size (keepTexts texts)).length,
      vs b = (inputs size (keepTexts texts) b).map vector) {out : List (List F)}
    (h : PlacedVectors dimension texts (fun k => (vs (k / size))[k % size]?) out) :
    out = texts.map (textVector dimension vector) := by
  apply List.ext_getElem?
  intro p
  rw [List.getElem?_map]
  cases htext : texts[p]? with
  | none =>
    rw [Option.map_none, List.getElem?_eq_none_iff, h.length]
    exact List.getElem?_eq_none_iff.mp htext
  | some text =>
    rw [h.text p text htext, Option.map_some, textVector]
    by_cases hblank : isBlankText text = true
    · rw [if_pos hblank, if_pos hblank]
    · have hmem : p ∈ keepIdx texts := (mem_keepIdx htext).mpr (by simpa using hblank)
      have hlt : (keepIdx texts).idxOf p < (keepTexts texts).length := by
        rw [length_keepTexts]
        exact List.idxOf_lt_length_of_mem hmem
      rw [if_neg hblank, if_neg hblank, hvs _ (div_lt_length_batches hsize hlt),
        List.getElem?_map, getElem?_inputs hsize, getElem?_keepTexts hmem, htext,
        Option.map_some]

/-- The vectors of an answered batch are those of its inputs. -/
theorem batchAnswer_pointwise {run : BatchRun F} {vector : String → List F}
    (hvector : run.Pointwise vector) {size : Nat} {maxRetries : ℤ} {retryBudgetS : ℚ}
    {texts : List String} {b : Nat} {vecs : List (List F)}
    (h : batchAnswer run size maxRetries retryBudgetS texts b = .ok vecs) :
    vecs = (inputs size (keepTexts texts) b).map vector := by
  obtain ⟨n, hn⟩ := batchAnswer_eq run size maxRetries retryBudgetS texts b
  exact hvector b _ n vecs (hn ▸ h)

/-- What `embedOutcome_afterBatches` says of a function is all that its specification asks. -/
theorem EmbedOutcome.embedSpec {dimension size : Nat} (hsize : 0 < size) {run : BatchRun F}
    {maxRetries : ℤ} {retryBudgetS : ℚ} {texts : List String}
    {result : Except EmbedError (List (List F))}
    (h : EmbedOutcome dimension size texts
      (batchAnswer run size maxRetries retryBudgetS texts) result) :
    EmbedSpec dimension run size maxRetries retryBudgetS texts result where
  outcome := h
  pointwise vector hvector hok := by
    have hvs : ∀ b < (batches size (keepTexts texts)).length,
        batchAnswer run size maxRetries retryBudgetS texts b =
          .ok ((inputs size (keepTexts texts) b).map vector) := by
      intro b hb
      obtain ⟨vecs, hvecs⟩ := hok b hb
      rw [hvecs, batchAnswer_pointwise hvector hvecs]
    obtain ⟨out, hresult, hplaced⟩ := h.returns _ hvs
    rw [hresult, hplaced.eq_map hsize fun b _ => rfl]

/-- An embedding that returns has had an answer to each batch. -/
theorem EmbedOutcome.answered {dimension size : Nat} {texts : List String}
    {answer : Nat → Except EmbedException (List (List F))}
    {result : Except EmbedError (List (List F))}
    (h : EmbedOutcome dimension size texts answer result) {out : List (List F)}
    (hout : result = .ok out) :
    ∀ b < (batches size (keepTexts texts)).length, ∃ vecs, answer b = .ok vecs := by
  intro b hb
  cases hanswer : answer b with
  | ok vecs => exact ⟨vecs, rfl⟩
  | error e =>
    obtain ⟨c, -, e', -, hresult⟩ := h.fails b hb e hanswer
    rw [hout] at hresult
    cases hresult

/-- Two embeddings that return, with the same pointwise provider, return the same vectors. -/
theorem EmbedSpec.agree {dimension size₁ size₂ : Nat} {run₁ run₂ : BatchRun F}
    {maxRetries₁ maxRetries₂ : ℤ} {retryBudgetS₁ retryBudgetS₂ : ℚ} {texts : List String}
    {result₁ result₂ : Except EmbedError (List (List F))}
    (h₁ : EmbedSpec dimension run₁ size₁ maxRetries₁ retryBudgetS₁ texts result₁)
    (h₂ : EmbedSpec dimension run₂ size₂ maxRetries₂ retryBudgetS₂ texts result₂)
    {vector : String → List F} (hvector₁ : run₁.Pointwise vector)
    (hvector₂ : run₂.Pointwise vector) {out₁ out₂ : List (List F)} (hout₁ : result₁ = .ok out₁)
    (hout₂ : result₂ = .ok out₂) : out₁ = out₂ := by
  have hvectors₁ := h₁.pointwise vector hvector₁ (h₁.outcome.answered hout₁)
  have hvectors₂ := h₂.pointwise vector hvector₂ (h₂.outcome.answered hout₂)
  rw [hout₁] at hvectors₁
  rw [hout₂] at hvectors₂
  exact (Except.ok.inj hvectors₁).trans (Except.ok.inj hvectors₂).symm

theorem embedTextsBatched_spec (dimension : Nat) {run : BatchRun F} {texts : List String}
    {batchSize : ℤ} (maxConcurrency maxRetries : ℤ) (retryBudgetS : ℚ)
    (hone : run.OneVectorPerInput)
    (horder : run.order.Perm
      (List.range (batches (max 1 batchSize).toNat (keepTexts texts)).length)) :
    EmbedSpec dimension run (max 1 batchSize).toNat maxRetries retryBudgetS texts
      (embedTextsBatched dimension run texts batchSize maxConcurrency maxRetries
        retryBudgetS) := by
  have hsize : 0 < (max 1 batchSize).toNat := by omega
  obtain ⟨order, hperm, heq⟩ :=
    embedTextsBatched_eq dimension maxConcurrency maxRetries retryBudgetS horder
  rw [heq]
  exact (embedOutcome_afterBatches dimension hsize hone hperm).embedSpec hsize

theorem embedTextsWithProgress_spec (env : EmbedEnv) {run : BatchRun F} {texts : List String}
    (hone : run.OneVectorPerInput)
    (horder : run.order.Perm (List.range (batches
      (envAtLeastOne defaultBatchSize env.batchSize).toNat (keepTexts texts)).length)) :
    EmbedSpec env.embeddingDim run (envAtLeastOne defaultBatchSize env.batchSize).toNat
      (envAtLeastOne defaultBatchMaxRetries env.batchMaxRetries) batchRetrySleepBudgetS texts
      ((embedTextsWithProgress env run texts).map Prod.fst) := by
  have hsize := envAtLeastOne_toNat_pos defaultBatchSize_pos env.batchSize
  rw [embedTextsWithProgress_eq env horder]
  exact (embedOutcome_afterBatches env.embeddingDim hsize hone horder).embedSpec hsize

/-- Both embedding functions return one vector for each text, in the order of the texts, whatever
    the batches, their attempts and the order in which they complete: the vector that the provider
    has returned for the text, or the zero vector where the text is blank.  When a batch fails,
    they raise its error. -/
theorem embedTexts_pointwise (env : EmbedEnv) (run₁ run₂ : BatchRun F) (texts : List String)
    (batchSize maxConcurrency maxRetries : ℤ) (retryBudgetS : ℚ)
    (hone₁ : run₁.OneVectorPerInput) (hone₂ : run₂.OneVectorPerInput)
    (horder₁ : run₁.order.Perm
      (List.range (batches (max 1 batchSize).toNat (keepTexts texts)).length))
    (horder₂ : run₂.order.Perm (List.range (batches
      (envAtLeastOne defaultBatchSize env.batchSize).toNat (keepTexts texts)).length)) :
    EmbedSpec env.embeddingDim run₁ (max 1 batchSize).toNat maxRetries retryBudgetS texts
        (embedTextsBatched env.embeddingDim run₁ texts batchSize maxConcurrency maxRetries
          retryBudgetS) ∧
      EmbedSpec env.embeddingDim run₂ (envAtLeastOne defaultBatchSize env.batchSize).toNat
        (envAtLeastOne defaultBatchMaxRetries env.batchMaxRetries) batchRetrySleepBudgetS texts
        ((embedTextsWithProgress env run₂ texts).map Prod.fst) ∧
      ∀ vector out₁ out₂, run₁.Pointwise vector → run₂.Pointwise vector →
        embedTextsBatched env.embeddingDim run₁ texts batchSize maxConcurrency maxRetries
          retryBudgetS = .ok out₁ →
        (embedTextsWithProgress env run₂ texts).map Prod.fst = .ok out₂ → out₁ = out₂ := by
  have hbatched := embedTextsBatched_spec env.embeddingDim maxConcurrency maxRetries retryBudgetS
    hone₁ horder₁
  have hprogress := embedTextsWithProgress_spec env hone₂ horder₂
  exact ⟨hbatched, hprogress, fun vector out₁ out₂ hvector₁ hvector₂ hout₁ hout₂ =>
    hbatched.agree hprogress hvector₁ hvector₂ hout₁ hout₂⟩

/-- The two functions of the embedder, with the same provider and the same environment. -/
theorem embedTexts_eq_embedTextsWithProgress (env : EmbedEnv) {run₁ run₂ : BatchRun F}
    {texts : List String} {vector : String → List F} (hvector₁ : run₁.Pointwise vector)
    (hvector₂ : run₂.Pointwise vector)
    (horder₁ : run₁.order.Perm (List.range (batches
      (max 1 (envAtLeastOne defaultBatchSize env.batchSize)).toNat (keepTexts texts)).length))
    (horder₂ : run₂.order.Perm (List.range (batches
      (envAtLeastOne defaultBatchSize env.batchSize).toNat (keepTexts texts)).length))
    {out₁ out₂ : List (List F)} (hout₁ : embedTexts env run₁ texts = .ok out₁)
    (hout₂ : (embedTextsWithProgress env run₂ texts).map Prod.fst = .ok out₂) : out₁ = out₂ :=
  (embedTextsBatched_spec env.embeddingDim _ _ _ hvector₁.oneVectorPerInput horder₁).agree
    (embedTextsWithProgress_spec env hvector₂.oneVectorPerInput horder₂) hvector₁ hvector₂
    hout₁ hout₂

end

/-- A provider whose vector of a text is its length. -/
def lengthRun (order : List Nat) : BatchRun Nat where
  embedBatch _ inputs _ := .ok (inputs.map fun text => [text.length])
  jitter _ _ := ⟨0, by decide⟩
  order := order

theorem lengthRun_pointwise (order : List Nat) :
    (lengthRun order).Pointwise fun text => [text.length] := by
  intro b inputs n vecs h
  exact (Except.ok.inj h).symm

/-- Four texts, one of them blank, in two batches and in three. -/
theorem embedTexts_pointwise_lengths :
    let env : EmbedEnv :=
      { embeddingDim := 1, batchSize := some 1, maxConcurrency := none, batchMaxRetries := none }
    let texts := ["a", " ", "bb", "ccc"]
    EmbedSpec 1 (lengthRun [1, 0]) 2 3 10 texts
        (embedTextsBatched 1 (lengthRun [1, 0]) texts 2 2 3 10) ∧
      embedTextsBatched 1 (lengthRun [1, 0]) texts 2 2 3 10 = .ok [[1], [0], [2], [3]] ∧
      (embedTextsWithProgress env (lengthRun [2, 0, 1]) texts).map Prod.fst =
        .ok [[1], [0], [2], [3]] := by
  intro env texts
  have hone := fun order => (lengthRun_pointwise order).oneVectorPerInput
  have hspec := embedTexts_pointwise env (lengthRun [1, 0]) (lengthRun [2, 0, 1]) texts 2 2 3 10
    (hone _) (hone _) (by decide +kernel) (by decide +kernel)
  refine ⟨hspec.1, hspec.1.pointwise _ (lengthRun_pointwise _) ?_,
    hspec.2.1.pointwise _ (lengthRun_pointwise _) ?_⟩
  · exact fun b _ => ⟨_, rfl⟩
  · exact fun b _ => ⟨_, rfl⟩

end Inherent
