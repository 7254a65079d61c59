import Inherent.Native.Store

/-!
# Conversation turns

The data that `ConversationMemoryWorkflow` passes between its activities, and the two
activities that work on turns: `redact_turns`, which drops a turn whose redaction
raises and audits it, and `chunk_conversation`, which splits each redacted turn into
chunks and numbers them on from the document's `chunk_count`.

The credential detectors (`redact_text`) and the settings of the splitter are
parameters.
-/

namespace Inherent

/-- `ConversationTurnSignal` (`temporal/models.py`). -/
structure ConversationTurnSignal where
  turnId : String
  role : String
  text : String
  ts : String
  userId : String
  client : Option String := none
  deriving DecidableEq, Repr

/-- `_BufferedTurn`: one turn in the workflow's buffer, before redaction. -/
structure BufferedTurn where
  turnId : String
  role : String
  text : String
  ts : String
  client : Option String := none
  deriving DecidableEq, Repr

/-- `ConversationMemoryInput` (`temporal/models.py`); times are in seconds. -/
structure ConversationMemoryInput where
  workspaceId : String
  externalId : String
  userId : String
  tenantId : Option Nat := none
  documentCreated : Bool := false
  seenTurnIds : List String := []
  flushCharThreshold : Nat := 4000
  flushIdleSeconds : Nat := 90
  continueAsNewTurns : Nat := 500
  idleFinalizeSeconds : Nat := 24 * 3600
  deriving DecidableEq, Repr

/-- `conversation_workflow_id`. -/
def conversationWorkflowId (workspaceId externalId : String) : String :=
  "conv-" ++ workspaceId ++ "-" ++ externalId

/-- `conversation_document_id`. -/
def conversationDocumentId (workspaceId externalId : String) : String :=
  conversationWorkflowId workspaceId externalId

/-! ## `redact_turns` -/

/-- `RedactTurnInput` (`temporal/models.py`). -/
structure RedactTurnInput where
  turnId : String
  text : String
  role : Option String := none
  deriving DecidableEq, Repr

/-- `RedactTurnsInput` (`temporal/models.py`). -/
structure RedactTurnsInput where
  turns : List RedactTurnInput
  workflowRunId : Option RunId := none
  workspaceId : Option String := none
  documentId : Option String := none
  deriving DecidableEq, Repr

/-- The counts of one redaction pass, by redaction type. -/
abbrev RedactionCounts := List (String × Nat)

/-- `RedactedTurn` (`temporal/models.py`). -/
structure RedactedTurn where
  turnId : String
  text : String
  role : Option String := none
  redactionCounts : RedactionCounts := []
  originalIndex : Nat := 0
  deriving DecidableEq, Repr

/-- `RedactTurnsOutput` (`temporal/models.py`). -/
structure RedactTurnsOutput where
  redactedTurns : List RedactedTurn := []
  droppedTurnIds : List String := []
  redactionCounts : RedactionCounts := []
  deriving DecidableEq, Repr

/-- `RedactionDetectorError`: which detector failed, and its cause. -/
structure RedactionDetectorError where
  detector : String
  causeType : String
  causeMessage : String
  deriving DecidableEq, Repr

/-- A row of `redaction_audit`, as `record_redaction_failure` writes it. -/
structure RedactionAudit where
  turnId : String
  detector : String
  errorType : String
  errorMessage : String
  workflowRunId : Option RunId
  workspaceId : Option String
  documentId : Option String
  deriving DecidableEq, Repr

/-- `redact_text` with the extra patterns of the settings. -/
abbrev RedactText := String → Except RedactionDetectorError (String × RedactionCounts)

/-- `batch_counts[redaction_type] = batch_counts.get(redaction_type, 0) + n`. -/
def RedactionCounts.add : RedactionCounts → String × Nat → RedactionCounts
  | [], entry => [entry]
  | (type, n) :: counts, entry =>
    if type = entry.1 then (type, n + entry.2) :: counts
    else (type, n) :: RedactionCounts.add counts entry

/-- The audit row for a dropped turn (`_audit_failure`). -/
def RedactTurnsInput.audit (input : RedactTurnsInput) (turn : RedactTurnInput)
    (exc : RedactionDetectorError) : RedactionAudit where
  turnId := turn.turnId
  detector := exc.detector
  errorType := exc.causeType
  errorMessage := exc.causeMessage
  workflowRunId := input.workflowRunId
  workspaceId := input.workspaceId
  documentId := input.documentId

/-- One round of the loop of `_redact_turns_inner`: the output so far and the audit rows
    that it tries to write. -/
def redactTurn (redactText : RedactText) (input : RedactTurnsInput)
    (acc : RedactTurnsOutput × List RedactionAudit) (turn : RedactTurnInput × Nat) :
    RedactTurnsOutput × List RedactionAudit :=
  match redactText turn.1.text with
  | .error exc =>
    ({ acc.1 with droppedTurnIds := acc.1.droppedTurnIds ++ [turn.1.turnId] },
      acc.2 ++ [input.audit turn.1 exc])
  | .ok (text, counts) =>
    ({ acc.1 with
        redactedTurns := acc.1.redactedTurns ++
          [{ turnId := turn.1.turnId, text := text, role := turn.1.role,
             redactionCounts := counts, originalIndex := turn.2 }]
        redactionCounts := counts.foldl RedactionCounts.add acc.1.redactionCounts }, acc.2)

/-- `redact_turns`: its output and the audit rows that it tries to write. -/
def redactTurns (redactText : RedactText) (input : RedactTurnsInput) :
    RedactTurnsOutput × List RedactionAudit :=
  input.turns.zipIdx.foldl (redactTurn redactText input) ({}, [])

/-! ## `chunk_conversation` -/

/-- `ConversationTurnMeta` (`temporal/models.py`). -/
structure ConversationTurnMeta where
  turnId : String
  ts : String
  client : Option String := none
  deriving DecidableEq, Repr

/-- `ChunkConversationInput` (`temporal/models.py`); the workflow sets no size. -/
structure ChunkConversationInput where
  workflowRunId : RunId
  documentId : String
  workspaceId : Option String := none
  redactedTurns : List RedactedTurn := []
  turnMeta : List ConversationTurnMeta := []
  maxChunkSize : Option Nat := none
  chunkOverlap : Option Nat := none
  deriving DecidableEq, Repr

/-- `settings.max_chunk_size` and `settings.chunk_overlap`. -/
structure ChunkSettings where
  maxChunkSize : Nat := 1000
  chunkOverlap : Nat := 200
  deriving DecidableEq, Repr

/-- A piece of a turn: its content and the span it was cut from. -/
abbrev Piece := String × Nat × Nat

/-- The end of the piece that starts at `start`: at `max_size`, or at the last space
    before it. -/
def pieceEnd (text : List Char) (maxSize start : Nat) : Nat :=
  let stop := min (start + maxSize) text.length
  if stop < text.length then
    match PyStr.rfindSpace text start stop with
    | some lastSpace => if start < lastSpace then lastSpace else stop
    | none => stop
  else stop

/-- The loop of `_split_turn_text` from `start`.  `start` moves forward in every round
    (`pieceEnd_gt`), so one round for each remaining character is enough. -/
def splitLoop (text : List Char) (maxSize overlap : Nat) : Nat → Nat → List Piece
  | 0, _ => []
  | fuel + 1, start =>
    if start < text.length then
      let stop := pieceEnd text maxSize start
      let piece := PyStr.strip (PyStr.slice text start stop)
      let next := if start < stop - overlap then stop - overlap else stop
      let rest := splitLoop text maxSize overlap fuel next
      if piece = [] then rest else (String.ofList piece, start, stop) :: rest
    else []

/-- `_split_turn_text`. -/
def splitTurnText (text : String) (maxSize overlap : Nat) : List Piece :=
  if text.toList = [] then []
  else if text.toList.length ≤ maxSize then [(text, 0, text.toList.length)]
  else splitLoop text.toList maxSize overlap text.toList.length 0

/-- The pieces of a redacted turn under the activity's sizes. -/
def ChunkConversationInput.pieces (input : ChunkConversationInput) (settings : ChunkSettings)
    (turn : RedactedTurn) : List Piece :=
  splitTurnText turn.text (input.maxChunkSize.getD settings.maxChunkSize)
    (input.chunkOverlap.getD settings.chunkOverlap)

/-- The attribution of the chunks of a turn: `ts` and `client` come from the last entry of
    `turn_meta` with the turn's id. -/
def ChunkConversationInput.attribution (input : ChunkConversationInput) (turn : RedactedTurn) :
    TurnAttribution :=
  let turnMeta := input.turnMeta.reverse.find? fun m => m.turnId = turn.turnId
  { turnIndex := turn.originalIndex
    turnId := turn.turnId
    role := turn.role
    turnTs := (turnMeta.map ConversationTurnMeta.ts).getD ""
    client := turnMeta.bind ConversationTurnMeta.client }

/-- The staged chunk for a piece of a turn, before it is numbered. -/
def ChunkConversationInput.chunk (input : ChunkConversationInput) (turn : RedactedTurn)
    (piece : Piece) (chunkIndex : Nat) : StagedChunk where
  documentId := input.documentId
  content := piece.1
  chunkIndex := chunkIndex
  startChar := piece.2.1
  endChar := piece.2.2
  tokenCount := some (estimateTokens piece.1)
  contentRisk := "none"
  chunkingStrategy := "conversation_turn"
  turn := some (input.attribution turn)

/-- The turns of the batch with their pieces, in order. -/
def ChunkConversationInput.turnPieces (input : ChunkConversationInput)
    (settings : ChunkSettings) : List (RedactedTurn × Piece) :=
  input.redactedTurns.flatMap fun turn => (input.pieces settings turn).map fun p => (turn, p)

/-- The chunks that `chunk_conversation` stages when it read `start_index`. -/
def chunkConversation (settings : ChunkSettings) (input : ChunkConversationInput)
    (startIndex : Nat) : List StagedChunk :=
  (input.turnPieces settings).zipIdx.map fun p =>
    input.chunk p.1.1 p.1.2 (startIndex + p.2)

/-! ## Lemmas about redaction -/

/-- What a turn of the batch adds and no other turn removes is there at the end. -/
private theorem redactTurns_of_mem {redactText : RedactText} {input : RedactTurnsInput}
    {P : RedactTurnsOutput × List RedactionAudit → Prop} {turn : RedactTurnInput}
    (hkeep : ∀ acc t, P acc → P (redactTurn redactText input acc t))
    (hadd : ∀ acc i, P (redactTurn redactText input acc (turn, i))) (hturn : turn ∈ input.turns) :
    P (redactTurns redactText input) := by
  obtain ⟨i, hi⟩ := List.getElem?_of_mem hturn
  rw [← List.mk_mem_zipIdx_iff_getElem?] at hi
  have hfold : ∀ (l : List (RedactTurnInput × Nat)) acc, (turn, i) ∈ l ∨ P acc →
      P (l.foldl (redactTurn redactText input) acc) := by
    intro l
    induction l with
    | nil => exact fun acc h => h.resolve_left List.not_mem_nil
    | cons t l ih =>
      intro acc h
      apply ih
      rcases h with h | h
      · rcases List.mem_cons.mp h with rfl | h
        · exact Or.inr (hadd acc i)
        · exact Or.inl h
      · exact Or.inr (hkeep acc t h)
  exact hfold _ _ (Or.inl hi)

/-- A turn that a detector failed on is audited. -/
theorem audit_mem_redactTurns {redactText : RedactText} {input : RedactTurnsInput}
    {turn : RedactTurnInput} {exc : RedactionDetectorError} (hturn : turn ∈ input.turns)
    (h : redactText turn.text = .error exc) :
    input.audit turn exc ∈ (redactTurns redactText input).2 := by
  refine redactTurns_of_mem (P := fun acc => input.audit turn exc ∈ acc.2) ?_ ?_ hturn
  · intro acc t hacc
    unfold redactTurn
    split
    · exact List.mem_append_left _ hacc
    · exact hacc
  · intro acc i
    simp only [redactTurn, h]
    exact List.mem_append_right _ List.mem_cons_self

/-- Every other turn is among the redacted ones, with its redacted text. -/
theorem exists_mem_redactTurns {redactText : RedactText} {input : RedactTurnsInput}
    {turn : RedactTurnInput} {text : String} {counts : RedactionCounts}
    (hturn : turn ∈ input.turns) (h : redactText turn.text = .ok (text, counts)) :
    ∃ rt ∈ (redactTurns redactText input).1.redactedTurns,
      rt.turnId = turn.turnId ∧ rt.text = text ∧ rt.role = turn.role := by
  refine redactTurns_of_mem (P := fun acc => ∃ rt ∈ acc.1.redactedTurns,
    rt.turnId = turn.turnId ∧ rt.text = text ∧ rt.role = turn.role) ?_ ?_ hturn
  · intro acc t hacc
    obtain ⟨rt, hrt, hrest⟩ := hacc
    unfold redactTurn
    split
    · exact ⟨rt, hrt, hrest⟩
    · exact ⟨rt, List.mem_append_left _ hrt, hrest⟩
  · intro acc i
    simp only [redactTurn, h]
    exact ⟨_, List.mem_append_right _ List.mem_cons_self, rfl, rfl, rfl⟩

/-! ## Lemmas about splitting -/

/-- Every piece ends after it starts, so the loop moves forward. -/
theorem pieceEnd_gt {text : List Char} {maxSize start : Nat} (hmax : 0 < maxSize)
    (hstart : start < text.length) : start < pieceEnd text maxSize start := by
  unfold pieceEnd
  dsimp only
  split
  · split
    · split
      · assumption
      · omega
    · omega
  · omega

/-- The loop stops by itself: any two amounts of fuel that cover the remaining characters
    give the same pieces. -/
theorem splitLoop_fuel {text : List Char} {maxSize overlap m n start : Nat} (hmax : 0 < maxSize)
    (hm : text.length - start ≤ m) (hn : text.length - start ≤ n) :
    splitLoop text maxSize overlap m start = splitLoop text maxSize overlap n start := by
  induction m generalizing n start with
  | zero =>
    have hstart : ¬ start < text.length := by omega
    cases n with
    | zero => rfl
    | succ n => simp only [splitLoop, if_neg hstart]
  | succ m ih =>
    by_cases hstart : start < text.length
    · cases n with
      | zero => omega
      | succ n =>
        have hend := pieceEnd_gt hmax hstart
        -- the next round starts later, so both fuels still cover what remains
        have hnext : start < (if start < pieceEnd text maxSize start - overlap then
            pieceEnd text maxSize start - overlap else pieceEnd text maxSize start) := by
          split <;> assumption
        simp only [splitLoop, if_pos hstart]
        rw [ih (n := n) (by omega) (by omega)]
    · cases n with
      | zero => simp only [splitLoop, if_neg hstart]
      | succ n => simp only [splitLoop, if_neg hstart]

/-- The chunks of a batch are its pieces in order, numbered on from the index that was
    read. -/
theorem chunkConversation_chunkIndex (settings : ChunkSettings)
    (input : ChunkConversationInput) (startIndex : Nat) :
    (chunkConversation settings input startIndex).map StagedChunk.chunkIndex =
      List.range' startIndex (chunkConversation settings input startIndex).length := by
  apply List.ext_getElem
  · simp only [List.length_map, List.length_range']
  · intro i h₁ h₂
    simp [chunkConversation, ChunkConversationInput.chunk]

/-- The contents of a batch do not depend on the index that was read. -/
theorem chunkConversation_content (settings : ChunkSettings) (input : ChunkConversationInput)
    (startIndex : Nat) :
    (chunkConversation settings input startIndex).map StagedChunk.content =
      (input.turnPieces settings).map fun p => p.2.1 := by
  apply List.ext_getElem
  · simp [chunkConversation]
  · intro i h₁ h₂
    simp [chunkConversation, ChunkConversationInput.chunk]

end Inherent
