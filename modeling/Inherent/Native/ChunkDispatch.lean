import Inherent.Native.ChunkWrites
import Inherent.Native.DocumentIngestion
import Inherent.Native.LineChunks

/-!
# The dispatch of `chunk_text`

`_chunk_text_inner` of `src/services/inh-ingestion-svc/src/temporal/activities/chunk.py` for a
document without a vertical pack: the limit that the token budget sets, the choice of a strategy,
and the chunks that are staged.  The hints are those of `FILE_TYPE_REGISTRY`
(`src/services/inh-contracts/src/inh_contracts/file_types.py`).
-/

namespace Inherent

/-! ## Hints -/

/-- `ChunkingHint`. -/
inductive ChunkingHint where
  | prose
  | tabular
  | structured
  | media
  | code
  deriving DecidableEq, Repr

/-- `FILE_TYPE_REGISTRY`: the MIME types of each entry, and its hint. -/
def fileTypeHints : List (List String × ChunkingHint) :=
  [(["text/plain"], .prose), (["text/markdown"], .prose), (["text/csv"], .tabular),
    (["text/html"], .prose), (["application/pdf"], .prose), (["application/json"], .structured),
    (["application/vnd.openxmlformats-officedocument.wordprocessingml.document"], .prose),
    (["application/vnd.openxmlformats-officedocument.spreadsheetml.sheet"], .tabular),
    (["application/vnd.openxmlformats-officedocument.presentationml.presentation"], .structured),
    (["image/png"], .media), (["message/rfc822"], .prose), (["application/epub+zip"], .prose),
    (["application/rtf", "text/rtf"], .prose),
    (["application/vnd.oasis.opendocument.text"], .prose),
    (["application/yaml", "text/yaml"], .structured), (["application/toml"], .structured),
    (["application/xml", "text/xml"], .structured),
    (["text/x-python", "application/javascript", "text/javascript", "application/typescript",
      "text/x-go", "text/x-java-source", "text/x-rustsrc", "text/x-csrc", "text/x-chdr",
      "text/x-c++src", "text/x-csharp", "text/x-ruby", "text/x-php", "text/x-swift",
      "text/x-kotlin", "text/x-scala", "application/x-sh", "text/x-sh", "application/sql",
      "text/x-sql", "text/x-r-source", "text/x-lua"], .code),
    (["application/x-subrip"], .prose), (["text/vtt"], .prose)]

/-- `str.lower` of a character, as far as it gives an ASCII letter: `'\u212a'` is the Kelvin
    sign. -/
def lowerChar (c : Char) : Char := if c = '\u212a' then 'k' else c.toLower

/-- The `chunking_hint` of `get_spec_for_mime`. -/
def chunkingHintForMime (mimeType : String) : Option ChunkingHint :=
  let declared := PyStr.strip (mimeType.toList.takeWhile fun c => c ≠ ';')
  let normalized := String.ofList (declared.map lowerChar)
  (fileTypeHints.find? fun spec => normalized ∈ spec.1).map Prod.snd

/-! ## Limits -/

/-- `_token_budget_char_cap`, with `1.3` as `13/10`. -/
def tokenBudgetCharCap (embeddingMaxTokens : Nat) : Nat :=
  max 1 (min (embeddingMaxTokens * 4) (20 * embeddingMaxTokens / 13))

/-- The name of a strategy. -/
def ChunkingStrategy.value : ChunkingStrategy → String
  | .tokens => "tokens"
  | .sentences => "sentences"
  | .paragraphs => "paragraphs"

/-- `ChunkTextInput`, without a vertical pack. -/
structure ChunkTextInput where
  documentId : String
  strategy : Option ChunkingStrategy := none
  maxChunkSize : Option Nat := none
  chunkOverlap : Option Nat := none
  contentType : Option String := none
  maxChunkSize_pos : ∀ n ∈ maxChunkSize, 1 ≤ n

/-- The settings of the chunking. -/
structure ChunkingSettings where
  chunkingStrategy : ChunkingStrategy := .sentences
  maxChunkSize : Nat := 1000
  chunkOverlap : Nat := 200
  embeddingMaxTokens : Nat := 512
  maxChunkSize_pos : 1 ≤ maxChunkSize
  embeddingMaxTokens_pos : 1 ≤ embeddingMaxTokens

variable (input : ChunkTextInput) (settings : ChunkingSettings)

/-- `overlap`. -/
def ChunkTextInput.overlap : Nat := input.chunkOverlap.getD settings.chunkOverlap

/-- `max_size`. -/
def ChunkTextInput.maxSize : Nat :=
  min (input.maxChunkSize.getD settings.maxChunkSize)
    (tokenBudgetCharCap settings.embeddingMaxTokens)

/-- `chunking_hint`. -/
def ChunkTextInput.chunkingHint : Option ChunkingHint :=
  match input.strategy, input.contentType with
  | none, some contentType => if contentType = "" then none else chunkingHintForMime contentType
  | _, _ => none

/-! ## Dispatch -/

/-- The branches on the name of a strategy. -/
def ChunkingStrategy.chunk (strategy : ChunkingStrategy) (text : List Char) (documentId : String)
    (maxSize overlap : Nat) : Option (List ChunkData) :=
  match strategy with
  | .sentences => some (chunkBySentences text documentId maxSize overlap)
  | .paragraphs => some (chunkByParagraphs text documentId maxSize)
  | .tokens => chunkBySize text documentId maxSize overlap

/-- The chunks and `chunking_strategy_used`; `none` when the strategy does not end. -/
def ChunkTextInput.dispatch (text : List Char) : Option (List ChunkData × String) :=
  let maxSize := input.maxSize settings
  let overlap := input.overlap settings
  match input.strategy with
  | some strategy =>
    (strategy.chunk text input.documentId maxSize overlap).map fun chunks =>
      (chunks, strategy.value)
  | none =>
    match input.chunkingHint with
    | some .tabular => some (chunkByRows text input.documentId maxSize, "rows")
    | some .structured =>
      (chunkBySections text input.documentId maxSize overlap).map fun chunks =>
        (chunks, if hasSectionMarkers text then "sections" else "tokens")
    | some .prose =>
      some (chunkProse text input.documentId maxSize overlap,
        if (detectHeaderBlock text).1 = [] then "sentences" else "prose_header")
    | some .media =>
      (chunkBySize text input.documentId maxSize overlap).map fun chunks => (chunks, "tokens")
    | some .code | none =>
      (settings.chunkingStrategy.chunk text input.documentId maxSize overlap).map fun chunks =>
        (chunks, settings.chunkingStrategy.value)

/-- The dict of a chunk, with its token estimate and the risk of its content. -/
def ChunkData.staged (search : String → String → Bool) (strategy : String) (c : ChunkData) :
    StagedChunk :=
  StagedChunk.scored search
    { documentId := c.documentId
      content := String.ofList c.content
      chunkIndex := c.chunkIndex
      startChar := c.startChar
      endChar := c.endChar
      tokenCount := some (estimateTokens (String.ofList c.content))
      chunkingStrategy := strategy
      sectionHeading := String.ofList c.sectionHeading }

/-- `_chunk_text_inner`: the chunks that it writes to staging, or the text of its exception.  The
    quality checks fail without a chunk only; an empty text has none, and is no failure. -/
def chunkTextInner (search : String → String → Bool) (text : String) :
    Option (Except String (List StagedChunk)) :=
  if text.toList = [] then some (.ok [])
  else
    (input.dispatch settings text.toList).map fun (chunks, strategy) =>
      if chunks = [] then
        .error ("Chunk quality check failed for " ++ input.documentId ++ ": 0 chunks produced")
      else .ok (chunks.map (ChunkData.staged search strategy))

end Inherent
