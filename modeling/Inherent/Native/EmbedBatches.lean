import Inherent.ForStd.ScatterBatches
import Inherent.Native.PyStr

/-!
# Retries of an embedding batch

`embed_batch_with_retry` (`src/services/inh-contracts/src/inh_contracts/embedding/retry.py`) and
the timeouts that are computed from its bounds
(`src/services/inh-ingestion-svc/src/temporal/weaviate_store_budget.py`).  Times are rational
numbers of seconds; what the attempts come to and `random.random()` are parameters.
-/

namespace Inherent

/-- What `provider.embed_batch` raises, as far as the retry looks at it. -/
inductive EmbedException where
  | timeout
  | network
  | remoteProtocol
  | httpStatus (code : Nat)
  | other
  deriving DecidableEq, Repr

/-- `is_transient_embed_error`. -/
def isTransientEmbedError : EmbedException → Bool
  | .timeout | .network | .remoteProtocol => true
  | .httpStatus code => code = 429 || 500 ≤ code
  | .other => false

/-- A value of `random.random()`. -/
abbrev Jitter := { r : ℚ // 0 ≤ r ∧ r < 1 }

/-- What a call comes to: its result, the number of its attempts, and the delays that it has
    slept. -/
structure RetryRun (V : Type) where
  result : Except EmbedException V
  attempts : Nat
  delays : List ℚ

/-- `base * (0.5 + random.random() * 0.5)` for an attempt. -/
def plannedDelay (attempt : Nat) (jitter : Jitter) : ℚ :=
  min 8 (1 / 2 * 2 ^ (attempt - 1)) * (1 / 2 + jitter.1 * (1 / 2))

variable {V : Type}

/-- The loop of `embed_batch_with_retry` from an attempt on, with the attempts that remain after
    it. -/
def retryLoop (outcome : Nat → Except EmbedException V) (jitter : Nat → Jitter)
    (retryBudgetS : ℚ) : Nat → Nat → ℚ → RetryRun V
  | remaining, attempt, sleptTotal =>
    match outcome attempt with
    | .ok vectors => { result := .ok vectors, attempts := attempt, delays := [] }
    | .error e =>
      let stopped := { result := .error e, attempts := attempt, delays := [] }
      match remaining with
      | 0 => stopped
      | remaining + 1 =>
        let remainingBudget := retryBudgetS - sleptTotal
        if isTransientEmbedError e = false then stopped
        else if remainingBudget ≤ 0 then stopped
        else
          let delay := min (plannedDelay attempt (jitter attempt)) remainingBudget
          let later := retryLoop outcome jitter retryBudgetS remaining (attempt + 1)
            (sleptTotal + delay)
          { later with delays := delay :: later.delays }

/-- `max(1, max_retries)`. -/
def retryAttempts (maxRetries : ℤ) : Nat := (max 1 maxRetries).toNat

/-- `embed_batch_with_retry`; the attempts are numbered from `1` on. -/
def embedBatchWithRetry (outcome : Nat → Except EmbedException V) (jitter : Nat → Jitter)
    (maxRetries : ℤ) (retryBudgetS : ℚ) : RetryRun V :=
  retryLoop outcome jitter retryBudgetS (retryAttempts maxRetries - 1) 1 0

/-- `max_wall_clock_s`. -/
def maxWallClockS (attempts : ℤ) (timeoutS retryBudgetS : ℚ) : ℚ :=
  max 1 attempts * timeoutS + retryBudgetS

/-! ## The store budget -/

/-- The constants of `embedding_defaults.py`. -/
def defaultBatchSize : Nat := 32
def defaultMaxConcurrency : Nat := 2
def defaultTimeoutS : Nat := 30
def defaultBatchMaxRetries : Nat := 3
def batchRetrySleepBudgetS : Nat := 10
def storeFixedOverheadSeconds : Nat := 30
def storeMaxTimeoutSeconds : Nat := 7200

/-- `_SECONDS_PER_BATCH`. -/
def secondsPerBatch : Nat := defaultBatchMaxRetries * defaultTimeoutS + batchRetrySleepBudgetS

/-- The batches of `weaviate_store_timeout_seconds`. -/
def storeBatches (chunkCount batchSize : ℤ) : Nat :=
  let n := (max 0 chunkCount).toNat
  let size := (max 1 batchSize).toNat
  if n > 0 then max 1 ((n + size - 1) / size) else 1

/-- `weaviate_store_timeout_seconds`. -/
def weaviateStoreTimeoutSeconds (chunkCount batchSize : ℤ) : Nat :=
  min storeMaxTimeoutSeconds
    (storeBatches chunkCount batchSize * secondsPerBatch + storeFixedOverheadSeconds)

end Inherent

/-!
## Batched embedding

`embed_texts_batched` (`src/services/inh-contracts/src/inh_contracts/embedding/batching.py`) and
`embed_texts_with_progress` (`src/services/inh-ingestion-svc/src/services/embedder.py`), which
filter the blank texts, embed the others in batches that complete in any order, and scatter the
vectors over the texts.  `F` is the type of a vector's components.
-/

namespace Inherent

open ScatterBatches

/-- What the provider does in one embedding of a list of texts, and the order in which the
    batches complete. -/
structure BatchRun (F : Type) where
  /-- The outcome of an attempt of a batch with its inputs. -/
  embedBatch : Nat → List String → Nat → Except EmbedException (List (List F))
  jitter : Nat → Nat → Jitter
  order : List Nat

/-- What an embedding raises: the error of a batch, or the `KeyError` of a vector that no batch
    has returned. -/
inductive EmbedError where
  | batch (e : EmbedException)
  | missingVector
  deriving DecidableEq, Repr

/-- Whether `t and t.strip()` fails. -/
def isBlankText (text : String) : Bool := PyStr.strip text.toList = []

/-- `keep_idx`. -/
def keepIdx (texts : List String) : List Nat :=
  (List.range texts.length).filter fun i => ¬ isBlankText (texts[i]?.getD "")

/-- `keep_texts`. -/
def keepTexts (texts : List String) : List String :=
  (keepIdx texts).map fun i => texts[i]?.getD ""

variable {F : Type}

/-- `embed_batch_with_retry` on a batch. -/
def batchAnswer (run : BatchRun F) (size : Nat) (maxRetries : ℤ) (retryBudgetS : ℚ)
    (texts : List String) (b : Nat) : Except EmbedException (List (List F)) :=
  (embedBatchWithRetry (run.embedBatch b (inputs size (keepTexts texts) b)) (run.jitter b)
    maxRetries retryBudgetS).result

variable [Zero F]

/-- `[0.0] * dim`. -/
def zeroVector (dimension : Nat) : List F := List.replicate dimension 0

/-- The end of both functions: the vectors at their texts, and zero vectors elsewhere. -/
def placeVectors (dimension : Nat) (texts : List String) (results : Nat → Option (List F)) :
    Except EmbedError (List (List F)) :=
  match scatter results 0 (keepIdx texts) (texts.map fun _ => zeroVector dimension) with
  | none => .error .missingVector
  | some out => .ok out

/-- The function after its loop over the batches. -/
def afterBatches (dimension : Nat) (texts : List String) :
    Except EmbedException (Nat → Option (List F)) → Except EmbedError (List (List F))
  | .error e => .error (.batch e)
  | .ok results => placeVectors dimension texts results

/-- `embed_texts_batched`. -/
def embedTextsBatched (dimension : Nat) (run : BatchRun F) (texts : List String)
    (batchSize maxConcurrency maxRetries : ℤ) (retryBudgetS : ℚ) :
    Except EmbedError (List (List F)) :=
  if texts = [] then .ok []
  else if keepIdx texts = [] then .ok (texts.map fun _ => zeroVector dimension)
  else
    let size := (max 1 batchSize).toNat
    let count := (batches size (keepTexts texts)).length
    let concurrency := min (max 1 maxConcurrency) (count : ℤ)
    -- one worker goes through the batches in their order
    let order := if concurrency = 1 then List.range count else run.order
    afterBatches dimension texts
      (collect (batchAnswer run size maxRetries retryBudgetS texts) size order fun _ => none)

/-- The settings that the embedder reads from the environment. -/
structure EmbedEnv where
  embeddingDim : Nat
  /-- `EMBEDDING_BATCH_SIZE`, `EMBEDDING_MAX_CONCURRENCY` and `EMBEDDING_BATCH_MAX_RETRIES`, where
      they are set. -/
  batchSize : Option ℤ
  maxConcurrency : Option ℤ
  batchMaxRetries : Option ℤ

/-- `max(1, int(raw)) if raw else default`. -/
def envAtLeastOne (default : Nat) : Option ℤ → ℤ
  | none => default
  | some n => max 1 n

/-- The batches of `order` complete, one after the other, and each reports the number of those
    that have completed. -/
def collectWithProgress (answer : Nat → Except EmbedException (List (List F))) (size total : Nat) :
    List Nat → (Nat → Option (List F)) → Nat →
    Except EmbedException ((Nat → Option (List F)) × List (Nat × Nat))
  | [], results, _ => .ok (results, [])
  | b :: order, results, completed =>
    match answer b with
    | .error e => .error e
    | .ok vecs =>
      (collectWithProgress answer size total order (record (b * size) vecs results)
        (completed + 1)).map fun later => (later.1, (completed + 1, total) :: later.2)

/-- `embed_texts_with_progress`, with the calls of `on_batch_done`.  A batch that raises ends it,
    whatever the others do. -/
def embedTextsWithProgress (env : EmbedEnv) (run : BatchRun F) (texts : List String) :
    Except EmbedError (List (List F) × List (Nat × Nat)) :=
  if texts = [] then .ok ([], [])
  else if keepIdx texts = [] then .ok (texts.map fun _ => zeroVector env.embeddingDim, [])
  else
    let size := (envAtLeastOne defaultBatchSize env.batchSize).toNat
    let total := (batches size (keepTexts texts)).length
    let maxRetries := envAtLeastOne defaultBatchMaxRetries env.batchMaxRetries
    match collectWithProgress
        (batchAnswer run size maxRetries batchRetrySleepBudgetS texts) size total run.order
        (fun _ => none) 0 with
    | .error e => .error (.batch e)
    | .ok (results, progress) =>
      (afterBatches env.embeddingDim texts (.ok results)).map fun out => (out, progress)

/-- `embed_texts`: the provider has been constructed with the same dimension. -/
def embedTexts (env : EmbedEnv) (run : BatchRun F) (texts : List String) :
    Except EmbedError (List (List F)) :=
  embedTextsBatched env.embeddingDim run texts (envAtLeastOne defaultBatchSize env.batchSize)
    (envAtLeastOne defaultMaxConcurrency env.maxConcurrency)
    (envAtLeastOne defaultBatchMaxRetries env.batchMaxRetries) batchRetrySleepBudgetS

end Inherent
