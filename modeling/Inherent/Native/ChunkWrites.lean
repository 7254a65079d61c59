import Inherent.ForStd.Run
import Inherent.Native.Conversation
import Inherent.Native.Store

/-!
# The write paths of one chunk

A chunk has a row in `document_chunks` and an object in Weaviate.  Four paths write both:
the store activities of a run, the public API's create and update
(`chunk_writes.py`, `SearchService.upsert_chunk_vector`), and the ingestion service's
`ChunkEditWorkflow` (`WeaviateService.update_chunk`).  The properties of the object that
none of the edits writes are left out.
-/

namespace Inherent

/-! ## The risk of a text -/

/-- The level of `compute_content_risk`. -/
inductive RiskLevel where
  | none
  | low
  | medium
  | high
  deriving DecidableEq, Repr

def RiskLevel.value : RiskLevel → String
  | .none => "none"
  | .low => "low"
  | .medium => "medium"
  | .high => "high"

/-- `_RISK_PATTERNS`: the reason codes and the weights. -/
def riskPatterns : List (String × Nat) :=
  [("ignore_previous_instructions", 3), ("disregard_instructions", 3),
    ("forget_instructions", 3), ("override_instructions", 2), ("system_prompt_reference", 2),
    ("role_reassignment", 2), ("new_instructions", 2), ("act_as_jailbreak", 3),
    ("do_anything_now", 3), ("instruction_override_marker", 2), ("exfiltration_request", 2)]

/-- The level of a score. -/
def riskLevel (score : Nat) : RiskLevel :=
  if score ≥ 5 then .high
  else if score ≥ 3 then .medium
  else if score ≥ 1 then .low
  else .none

/-- `compute_content_risk`, the same code in both services; `search code text` is
    `pattern.search(text)` with the pattern of the reason code. -/
def computeContentRisk (search : String → String → Bool) (text : String) :
    RiskLevel × List String :=
  if PyStr.strip text.toList = [] then (.none, [])
  else
    let matched := riskPatterns.filter fun p => search p.1 text
    if matched = [] then (.none, [])
    else
      (riskLevel (matched.map Prod.snd).sum,
        (matched.map Prod.fst).insertionSort fun a b => a ≤ b)

/-! ## The row -/

/-- The row of a chunk.  Whoever sets `content_hash`, a column that may be null, computes it
    from the content. -/
structure ChunkRecord where
  content : String
  tokenCount : Nat
  contentHash : Option Sha256
  ingestedAt : Timestamp
  hash_eq : ∀ hash ∈ contentHash, hash = ⟨content⟩
  deriving DecidableEq

/-- The columns that every write of a content sets. -/
def ChunkRecord.written (content : String) (now : Timestamp) : ChunkRecord where
  content := content
  tokenCount := estimateTokens content
  contentHash := some ⟨content⟩
  ingestedAt := now
  hash_eq _ h := (Option.some.inj h).symm

/-- The public API's `update_document_chunk`: the row after it, and the row it returns. -/
def updateDocumentChunk (content : String) (now : Timestamp)
    (onlyIfContentHash : Option Sha256) (row : Option ChunkRecord) :
    Option ChunkRecord × Option ChunkRecord :=
  match row with
  | none => (none, none)
  | some r =>
    if onlyIfContentHash = none ∨ r.contentHash = onlyIfContentHash then
      (some (.written content now), some (.written content now))
    else (some r, none)

/-! ## The object -/

/-- The properties of a chunk's object that its writes set; no `content_hash` stands for the
    empty text. -/
structure ChunkObject where
  content : String
  contentHash : Option Sha256
  ingestedAt : Timestamp
  contentRisk : String
  contentRiskReasons : List String
  deriving DecidableEq, Repr

/-- The object that the batch write stores. -/
def VectorObject.chunkObject (o : VectorObject) : ChunkObject where
  content := o.content
  contentHash := some o.contentHash
  ingestedAt := o.ingestedAt
  contentRisk := o.contentRisk
  contentRiskReasons := o.contentRiskReasons

/-- `upsert_chunk_vector`: the properties that both its `POST` and its `PATCH` write. -/
def upsertChunkVector (search : String → String → Bool) (content : String)
    (contentHash : Option Sha256) (now : Timestamp) : ChunkObject :=
  let risk := computeContentRisk search content
  { content := content
    contentHash := contentHash
    ingestedAt := now
    contentRisk := risk.1.value
    contentRiskReasons := risk.2 }

/-- The ingestion service's `update_chunk`. -/
def ChunkObject.updateChunk (o : ChunkObject) (content : String) (now : Timestamp) :
    ChunkObject :=
  { o with
    content := content
    contentHash := some ⟨content⟩
    ingestedAt := now }

/-- The staged chunk of `chunk_text`, with the risk of its content. -/
def StagedChunk.scored (search : String → String → Bool) (chunk : StagedChunk) : StagedChunk :=
  let risk := computeContentRisk search chunk.content
  { chunk with contentRisk := risk.1.value, contentRiskReasons := risk.2 }

/-! ## The writes -/

/-- How a write of a store ends. -/
inductive WriteOutcome where
  | applied
  /-- An error, and the store is as it was. -/
  | rejected
  /-- A timeout, before or after the store applied the write. -/
  | timedOut (landed : Bool)
  deriving DecidableEq, Repr

/-- The store has applied the write. -/
def WriteOutcome.lands : WriteOutcome → Bool
  | .applied => true
  | .rejected => false
  | .timedOut landed => landed

/-- The row and the object of a chunk. -/
structure ChunkStores where
  row : Option ChunkRecord := none
  object : Option ChunkObject := none
  deriving DecidableEq

/-- A write of the chunk; `compensated` says whether a compensation gets through. -/
inductive ChunkWrite where
  /-- The store activities of a run store a chunk of `chunk_text`. -/
  | storeDocument (input : StoreDocumentInput) (chunk : StagedChunk) (now : Timestamp)
      (outcome : WriteOutcome)
  /-- They store a chunk of `chunk_conversation`. -/
  | storeConversation (input : StoreDocumentInput) (batch : ChunkConversationInput)
      (turn : RedactedTurn) (piece : Piece) (chunkIndex : Nat) (now : Timestamp)
      (outcome : WriteOutcome)
  /-- `create_chunk_everywhere`. -/
  | createChunk (content : String) (now : Timestamp) (outcome : WriteOutcome)
      (compensated : Bool)
  /-- `update_chunk_everywhere`. -/
  | updateChunk (content : String) (now : Timestamp) (outcome : WriteOutcome)
      (compensated : Bool)
  /-- `ChunkEditWorkflow`. -/
  | editChunk (content : String) (now : Timestamp) (outcome : WriteOutcome)
  deriving DecidableEq

namespace ChunkStores

/-- The store of one staged chunk. -/
def store (s : ChunkStores) (input : StoreDocumentInput) (chunk : StagedChunk)
    (now : Timestamp) (outcome : WriteOutcome) : ChunkStores where
  row := some (.written chunk.content now)
  object := if outcome.lands then
      some (input.vectorObject now chunk.toDocumentChunk).chunkObject
    else s.object

/-- An update of an object that is not there does not land. -/
def CanUpdate (s : ChunkStores) (outcome : WriteOutcome) : Prop :=
  outcome.lands = true → s.object.isSome = true

instance (s : ChunkStores) (outcome : WriteOutcome) : Decidable (s.CanUpdate outcome) :=
  inferInstanceAs (Decidable (_ → _))

/-- One write; a create is enabled when the index is free. -/
def step (search : String → String → Bool) (s : ChunkStores) :
    ChunkWrite → Option ChunkStores
  | .storeDocument input chunk now outcome =>
    some (s.store input (chunk.scored search) now outcome)
  | .storeConversation input batch turn piece chunkIndex now outcome =>
    some (s.store input (batch.chunk turn piece chunkIndex) now outcome)
  | .createChunk content now outcome compensated =>
    if s.row.isNone ∧ s.object = none then
      let chunk := ChunkRecord.written content now
      -- only an error that is no timeout deletes the new row
      some
        { row := if outcome = .rejected ∧ compensated then none else some chunk
          object := if outcome.lands then
              some (upsertChunkVector search content chunk.contentHash now)
            else s.object }
    else none
  | .updateChunk content now outcome compensated =>
    -- the prior row's own hash is the one that the update asks for
    match s.row, updateDocumentChunk content now (s.row.bind ChunkRecord.contentHash) s.row with
    | some prior, (row, some updated) =>
      if s.CanUpdate outcome then
        some
          { row := if outcome ≠ .applied ∧ compensated then
                (updateDocumentChunk prior.content now updated.contentHash row).1
              else row
            object := if outcome.lands then
                some (upsertChunkVector search content updated.contentHash now)
              else s.object }
      else none
    | _, _ => some s
  | .editChunk content now outcome =>
    match s.row with
    | none => some s
    | some _ =>
      if s.CanUpdate outcome then
        some
          { row := some (.written content now)
            object := if outcome.lands then s.object.map fun o => o.updateChunk content now
              else s.object }
      else none

/-- The write is reported as successful; an update without a row is not. -/
def succeeds (s : ChunkStores) : ChunkWrite → Bool
  | .storeDocument _ _ _ outcome => outcome = .applied
  | .storeConversation _ _ _ _ _ _ outcome => outcome = .applied
  | .createChunk _ _ outcome _ => outcome = .applied
  | .updateChunk _ _ outcome _ => s.row.isSome && outcome = .applied
  | .editChunk _ _ outcome => s.row.isSome && outcome = .applied

end ChunkStores

end Inherent
