import Inherent.Spec.ConversationSystem
import Inherent.Spec.TurnChunks

/-!
# A flush stages what redaction returned

`redact_turns` accounts for every turn of its input, and `chunk_conversation` takes its
text from the redacted turns alone.  So a staged chunk is a slice of one redacted turn,
and two flushes with the same redacted turns stage the same chunks, whatever the raw
texts were.  What the raw buffer still decides is `ts` and `client` of a chunk.
-/

namespace Inherent

/-! ## The accounting of `redact_turns` -/

/-- What `redact_turns` makes of the turn at a position: nothing when a detector failed. -/
def redacted? (redactText : RedactText) (p : RedactTurnInput × Nat) : Option RedactedTurn :=
  match redactText p.1.text with
  | .error _ => none
  | .ok (text, counts) =>
    some { turnId := p.1.turnId, text := text, role := p.1.role, redactionCounts := counts,
           originalIndex := p.2 }

/-- Every turn of the input is accounted for once. -/
structure Accounts (redactText : RedactText) (input : RedactTurnsInput)
    (output : RedactTurnsOutput) : Prop where
  /-- The redacted turns are in the order of the input, and no two are from one position. -/
  ordered : (output.redactedTurns.map RedactedTurn.originalIndex).Pairwise (· < ·)
  /-- A redacted turn is the turn at its `original_index`, with its text redacted. -/
  redacted : ∀ rt ∈ output.redactedTurns, ∃ turn counts,
    input.turns[rt.originalIndex]? = some turn ∧ rt.turnId = turn.turnId ∧
      rt.role = turn.role ∧ redactText turn.text = .ok (rt.text, counts)
  /-- The turns at all other positions are dropped. -/
  dropped : output.droppedTurnIds = (input.turns.zipIdx.filter fun p =>
    p.2 ∉ output.redactedTurns.map RedactedTurn.originalIndex).map fun p => p.1.turnId

private theorem foldl_redactTurn {redactText : RedactText} {input : RedactTurnsInput}
    (turns : List (RedactTurnInput × Nat)) (acc : RedactTurnsOutput × List RedactionAudit) :
    (turns.foldl (redactTurn redactText input) acc).1.redactedTurns =
        acc.1.redactedTurns ++ turns.filterMap (redacted? redactText) ∧
      (turns.foldl (redactTurn redactText input) acc).1.droppedTurnIds =
        acc.1.droppedTurnIds ++
          (turns.filter fun p => (redacted? redactText p).isNone).map fun p => p.1.turnId := by
  induction turns generalizing acc with
  | nil => simp
  | cons p turns ih =>
    have hrest := ih (redactTurn redactText input acc p)
    rw [List.foldl_cons, hrest.1, hrest.2]
    -- a turn whose detector raises is dropped, and any other is kept
    cases h : redactText p.1.text with
    | error exc => simp [redactTurn, redacted?, h]
    | ok result => simp [redactTurn, redacted?, h]

/-- The redacted turns, position by position. -/
theorem redactedTurns_redactTurns (redactText : RedactText) (input : RedactTurnsInput) :
    (redactTurns redactText input).1.redactedTurns =
      input.turns.zipIdx.filterMap (redacted? redactText) :=
  (foldl_redactTurn input.turns.zipIdx ({}, [])).1

/-- The dropped turns, position by position. -/
theorem droppedTurnIds_redactTurns (redactText : RedactText) (input : RedactTurnsInput) :
    (redactTurns redactText input).1.droppedTurnIds =
      (input.turns.zipIdx.filter fun p => (redacted? redactText p).isNone).map
        fun p => p.1.turnId :=
  (foldl_redactTurn input.turns.zipIdx ({}, [])).2

private theorem redacted?_eq_some {redactText : RedactText} {p : RedactTurnInput × Nat}
    {rt : RedactedTurn} (h : redacted? redactText p = some rt) :
    rt.originalIndex = p.2 ∧ rt.turnId = p.1.turnId ∧ rt.role = p.1.role ∧
      ∃ counts, redactText p.1.text = .ok (rt.text, counts) := by
  unfold redacted? at h
  split at h
  · cases h
  · rename_i text counts hok
    cases h
    exact ⟨rfl, rfl, rfl, counts, hok⟩

private theorem pairwise_zipIdx (turns : List RedactTurnInput) :
    turns.zipIdx.Pairwise fun p q => p.2 < q.2 := by
  apply List.pairwise_map.mp
  rw [List.zipIdx_map_snd]
  exact List.pairwise_lt_range'

/-- A position has a redacted turn exactly when its turn was redacted. -/
private theorem mem_originalIndex_iff {redactText : RedactText} {input : RedactTurnsInput}
    {p : RedactTurnInput × Nat} (hp : p ∈ input.turns.zipIdx) :
    p.2 ∈ (redactTurns redactText input).1.redactedTurns.map RedactedTurn.originalIndex ↔
      (redacted? redactText p).isSome = true := by
  rw [redactedTurns_redactTurns]
  constructor
  · intro h
    obtain ⟨rt, hrt, hindex⟩ := List.mem_map.mp h
    obtain ⟨q, hq, hsome⟩ := List.mem_filterMap.mp hrt
    have hpos : q.2 = p.2 := (redacted?_eq_some hsome).1.symm.trans hindex
    -- the position determines the turn
    have hturn : q.1 = p.1 := by
      have hp' := List.mk_mem_zipIdx_iff_getElem?.mp hp
      have hq' := List.mk_mem_zipIdx_iff_getElem?.mp hq
      rw [hpos, hp'] at hq'
      exact (Option.some.inj hq').symm
    rw [← Prod.ext hturn hpos, hsome]
    rfl
  · intro h
    obtain ⟨rt, hsome⟩ := Option.isSome_iff_exists.mp h
    have hmem : rt ∈ input.turns.zipIdx.filterMap (redacted? redactText) :=
      List.mem_filterMap.mpr ⟨p, hp, hsome⟩
    exact List.mem_map.mpr ⟨rt, hmem, (redacted?_eq_some hsome).1⟩

/-- `redact_turns` accounts for every turn. -/
theorem accounts_redactTurns (redactText : RedactText) (input : RedactTurnsInput) :
    Accounts redactText input (redactTurns redactText input).1 where
  ordered := by
    rw [redactedTurns_redactTurns, List.pairwise_map, List.pairwise_filterMap]
    apply (pairwise_zipIdx input.turns).imp
    intro p q hlt rt hrt rt' hrt'
    rw [(redacted?_eq_some hrt).1, (redacted?_eq_some hrt').1]
    exact hlt
  redacted := by
    intro rt hrt
    rw [redactedTurns_redactTurns] at hrt
    obtain ⟨p, hp, hsome⟩ := List.mem_filterMap.mp hrt
    obtain ⟨hindex, hid, hrole, counts, htext⟩ := redacted?_eq_some hsome
    exact ⟨p.1, counts, hindex ▸ List.mk_mem_zipIdx_iff_getElem?.mp hp, hid, hrole, htext⟩
  dropped := by
    rw [droppedTurnIds_redactTurns]
    congr 1
    -- a position is dropped when it has no redacted turn
    apply List.filter_congr
    intro p hp
    have hiff : p.2 ∈ (redactTurns redactText input).1.redactedTurns.map
        RedactedTurn.originalIndex ↔ (redacted? redactText p).isSome = true :=
      mem_originalIndex_iff hp
    cases h : redacted? redactText p with
    | none => simp [hiff, h]
    | some rt => simp [hiff, h]

/-! ## The chunks of a redacted turn -/

/-- The chunk belongs to the turn, and its content is the text of the turn between `a` and
    `b`, inside the span of the chunk. -/
structure StagedChunk.SliceOf (chunk : StagedChunk) (rt : RedactedTurn) (a b : Nat) : Prop where
  turnIndex : chunk.turn.map TurnAttribution.turnIndex = some rt.originalIndex
  turnId : chunk.turn.map TurnAttribution.turnId = some rt.turnId
  role : chunk.turn.map TurnAttribution.role = some rt.role
  slices : Piece.Slices (chunk.content, chunk.startChar, chunk.endChar) rt.text.toList a b

/-- The character at `p` of the turn is in the content of one of the turn's chunks. -/
def CoveredBy (chunks : List StagedChunk) (rt : RedactedTurn) (p : Nat) : Prop :=
  ∃ chunk ∈ chunks, ∃ a b, chunk.SliceOf rt a b ∧ a ≤ p ∧ p < b

/-- The chunk of a piece of a turn is a slice of the turn where the piece is. -/
private theorem sliceOf_chunk {input : ChunkConversationInput} {rt : RedactedTurn} {piece : Piece}
    {chunkIndex a b : Nat} (h : piece.Slices rt.text.toList a b) :
    (input.chunk rt piece chunkIndex).SliceOf rt a b where
  turnIndex := rfl
  turnId := rfl
  role := rfl
  slices := h

/-- The staged chunks are those of the pieces of the redacted turns. -/
private theorem mem_chunkConversation_iff {settings : ChunkSettings}
    {input : ChunkConversationInput} {start : Nat} {chunk : StagedChunk} :
    chunk ∈ chunkConversation settings input start ↔
      ∃ rt piece i, (input.turnPieces settings)[i]? = some (rt, piece) ∧
        chunk = input.chunk rt piece (start + i) := by
  unfold chunkConversation
  constructor
  · intro h
    obtain ⟨⟨⟨rt, piece⟩, i⟩, hmem, rfl⟩ := List.mem_map.mp h
    exact ⟨rt, piece, i, List.mk_mem_zipIdx_iff_getElem?.mp hmem, rfl⟩
  · rintro ⟨rt, piece, i, hi, rfl⟩
    exact List.mem_map.mpr ⟨((rt, piece), i), List.mk_mem_zipIdx_iff_getElem?.mpr hi, rfl⟩

private theorem mem_turnPieces_iff {settings : ChunkSettings} {input : ChunkConversationInput}
    {rt : RedactedTurn} {piece : Piece} :
    (rt, piece) ∈ input.turnPieces settings ↔
      rt ∈ input.redactedTurns ∧ piece ∈ input.pieces settings rt := by
  simp only [ChunkConversationInput.turnPieces, List.mem_flatMap, List.mem_map, Prod.mk.injEq]
  constructor
  · rintro ⟨turn, hturn, p, hp, rfl, rfl⟩
    exact ⟨hturn, hp⟩
  · rintro ⟨hturn, hp⟩
    exact ⟨rt, hturn, piece, hp, rfl, rfl⟩

/-- A staged chunk is a slice of one of the redacted turns. -/
theorem exists_sliceOf {settings : ChunkSettings} {input : ChunkConversationInput} {start : Nat}
    {chunk : StagedChunk} (h : chunk ∈ chunkConversation settings input start) :
    ∃ rt ∈ input.redactedTurns, ∃ a b, chunk.SliceOf rt a b := by
  obtain ⟨rt, piece, i, hi, rfl⟩ := mem_chunkConversation_iff.mp h
  obtain ⟨hrt, hpiece⟩ := mem_turnPieces_iff.mp (List.mem_of_getElem? hi)
  obtain ⟨a, b, hslices, _⟩ := slicesAll_of_mem_splitTurnText hpiece
  exact ⟨rt, hrt, a, b, sliceOf_chunk hslices⟩

/-- It is a slice of no other turn when the positions of the turns differ. -/
theorem existsUnique_sliceOf {settings : ChunkSettings} {input : ChunkConversationInput}
    {start : Nat} {chunk : StagedChunk}
    (hordered : (input.redactedTurns.map RedactedTurn.originalIndex).Pairwise (· < ·))
    (h : chunk ∈ chunkConversation settings input start) :
    ∃! rt, rt ∈ input.redactedTurns ∧ ∃ a b, chunk.SliceOf rt a b := by
  obtain ⟨rt, hrt, a, b, hslice⟩ := exists_sliceOf h
  refine ⟨rt, ⟨hrt, a, b, hslice⟩, ?_⟩
  rintro rt' ⟨hrt', a', b', hslice'⟩
  -- a chunk names the position of its turn
  have hindex : rt'.originalIndex = rt.originalIndex :=
    Option.some.inj (hslice'.turnIndex.symm.trans hslice.turnIndex)
  have hnodup : (input.redactedTurns.map RedactedTurn.originalIndex).Nodup :=
    hordered.imp Nat.ne_of_lt
  exact List.inj_on_of_nodup_map hnodup hrt' hrt hindex

/-- The chunks hold every character of a redacted turn that is more than whitespace, and
    every character of a turn that is not split. -/
theorem coveredBy_chunkConversation {settings : ChunkSettings} {input : ChunkConversationInput}
    {start p : Nat} {rt : RedactedTurn} {ch : Char}
    (hmax : 0 < input.maxChunkSize.getD settings.maxChunkSize) (hrt : rt ∈ input.redactedTurns)
    (hp : rt.text.toList[p]? = some ch)
    (hch : PyStr.isSpace ch = false ∨
      rt.text.toList.length ≤ input.maxChunkSize.getD settings.maxChunkSize) :
    CoveredBy (chunkConversation settings input start) rt p := by
  obtain ⟨piece, hpiece, a, b, hslices, ha, hb⟩ : ∃ piece ∈ input.pieces settings rt,
      ∃ a b, piece.Slices rt.text.toList a b ∧ a ≤ p ∧ p < b :=
    exists_mem_splitTurnText hmax hp hch
  -- the piece that holds the character is staged as a chunk
  obtain ⟨i, hi⟩ := List.getElem?_of_mem (mem_turnPieces_iff.mpr ⟨hrt, hpiece⟩)
  exact ⟨input.chunk rt piece (start + i), mem_chunkConversation_iff.mpr ⟨rt, piece, i, hi, rfl⟩,
    a, b, sliceOf_chunk hslices, ha, hb⟩

/-! ## Two batches with the same redacted turns -/

/-- The redacted turn without its counts, which `chunk_conversation` does not read. -/
def RedactedTurn.withoutCounts (rt : RedactedTurn) : RedactedTurn :=
  { rt with redactionCounts := [] }

/-- The chunk without what comes from `turn_meta`. -/
def StagedChunk.withoutMeta (chunk : StagedChunk) : StagedChunk :=
  { chunk with turn := chunk.turn.map fun t => { t with turnTs := "", client := none } }

/-- The input of `chunk_conversation` without the counts of the redaction. -/
def ChunkConversationInput.withoutCounts (input : ChunkConversationInput) :
    ChunkConversationInput :=
  { input with redactedTurns := input.redactedTurns.map RedactedTurn.withoutCounts }

/-- The counts of the redaction are not read. -/
private theorem chunkConversation_withoutCounts (settings : ChunkSettings)
    (input : ChunkConversationInput) (start : Nat) :
    chunkConversation settings input.withoutCounts start =
      chunkConversation settings input start := by
  -- the pieces are cut from the texts
  have hpieces : input.withoutCounts.turnPieces settings =
      (input.turnPieces settings).map fun p => (p.1.withoutCounts, p.2) := by
    simp only [ChunkConversationInput.turnPieces, ChunkConversationInput.withoutCounts,
      List.flatMap_map, List.map_flatMap, List.map_map]
    rfl
  unfold chunkConversation
  rw [hpieces, List.zipIdx_map, List.map_map]
  rfl

/-- Without `turn_meta` the chunks are the same up to what comes from it. -/
private theorem chunkConversation_withoutMeta (settings : ChunkSettings)
    (input : ChunkConversationInput) (start : Nat) :
    (chunkConversation settings input start).map StagedChunk.withoutMeta =
      chunkConversation settings { input with turnMeta := [] } start := by
  unfold chunkConversation
  rw [List.map_map]
  rfl

/-- Chunking is a function of the document, the sizes, the redacted turns without their
    counts and `turn_meta`. -/
theorem chunkConversation_congr {settings : ChunkSettings}
    {input input' : ChunkConversationInput} {start : Nat}
    (hdoc : input'.documentId = input.documentId)
    (hmax : input'.maxChunkSize = input.maxChunkSize)
    (hoverlap : input'.chunkOverlap = input.chunkOverlap)
    (hturns : input'.redactedTurns.map RedactedTurn.withoutCounts =
      input.redactedTurns.map RedactedTurn.withoutCounts)
    (hmeta : input'.turnMeta = input.turnMeta) :
    chunkConversation settings input' start = chunkConversation settings input start := by
  rw [← chunkConversation_withoutCounts settings input',
    ← chunkConversation_withoutCounts settings input]
  unfold ChunkConversationInput.withoutCounts
  rw [hturns]
  cases input
  cases input'
  dsimp only at hdoc hmax hoverlap hmeta
  subst hdoc hmax hoverlap hmeta
  -- the run id and the workspace are not in a chunk
  rfl

/-! ## A flush -/

namespace FlushRecord

/-- The chunks that the flush stages when `chunk_conversation` reads `start`. -/
def staged (c : ConversationConfig) (r : FlushRecord) (start : Nat) : List StagedChunk :=
  chunkConversation c.settings (r.chunkInput c) start

/-- The two flushes have the same redacted turns: ids, roles, redacted texts and
    positions. -/
def SameRedacted (c : ConversationConfig) (r r' : FlushRecord) : Prop :=
  (r'.redacted c).map RedactedTurn.withoutCounts = (r.redacted c).map RedactedTurn.withoutCounts

/-- Every staged chunk is a slice of exactly one redacted turn. -/
theorem existsUnique_sliceOf_staged {c : ConversationConfig} {r : FlushRecord} {start : Nat}
    {chunk : StagedChunk} (h : chunk ∈ r.staged c start) :
    ∃! rt, rt ∈ r.redacted c ∧ ∃ a b, chunk.SliceOf rt a b :=
  existsUnique_sliceOf (accounts_redactTurns c.redactText r.redactInput).ordered h

/-- Flushes of one document with the same redacted turns stage the same chunks up to what
    comes from `turn_meta`. -/
theorem withoutMeta_staged_congr {c : ConversationConfig} {r r' : FlushRecord} (start : Nat)
    (hdoc : r'.documentId = r.documentId) (hsame : SameRedacted c r r') :
    (r'.staged c start).map StagedChunk.withoutMeta =
      (r.staged c start).map StagedChunk.withoutMeta := by
  unfold staged
  rw [chunkConversation_withoutMeta, chunkConversation_withoutMeta]
  exact chunkConversation_congr hdoc rfl rfl hsame rfl

/-- With the same `turn_meta` they stage the same chunks. -/
theorem staged_congr {c : ConversationConfig} {r r' : FlushRecord} (start : Nat)
    (hdoc : r'.documentId = r.documentId) (hsame : SameRedacted c r r')
    (hmeta : (r'.chunkInput c).turnMeta = (r.chunkInput c).turnMeta) :
    r'.staged c start = r.staged c start :=
  chunkConversation_congr hdoc rfl rfl hsame hmeta

/-- For every batch of raw turns, set of redaction rules and document: every turn is
    redacted or dropped, once; every staged chunk is a slice of one redacted turn; another
    batch with the same redacted turns stages the same chunks, up to the `ts` and `client`
    of the raw turns; every character of a redacted turn is in one of its chunks, unless it
    is whitespace of a turn that is split; and the chunks are numbered on from the
    document's `chunk_count`. -/
theorem staged_noninterference (c : ConversationConfig) (r : FlushRecord)
    (doc : Option Document) :
    Accounts c.redactText r.redactInput (redactTurns c.redactText r.redactInput).1 ∧
    (∀ chunk ∈ r.staged c (getDocumentChunkCount doc),
      ∃! rt, rt ∈ r.redacted c ∧ ∃ a b, chunk.SliceOf rt a b) ∧
    (∀ r' : FlushRecord, r'.documentId = r.documentId → SameRedacted c r r' →
      (r'.staged c (getDocumentChunkCount doc)).map StagedChunk.withoutMeta =
          (r.staged c (getDocumentChunkCount doc)).map StagedChunk.withoutMeta ∧
        ((r'.chunkInput c).turnMeta = (r.chunkInput c).turnMeta →
          r'.staged c (getDocumentChunkCount doc) = r.staged c (getDocumentChunkCount doc))) ∧
    (0 < c.settings.maxChunkSize → ∀ rt ∈ r.redacted c, ∀ (p : Nat) (ch : Char),
      rt.text.toList[p]? = some ch →
      PyStr.isSpace ch = false ∨ rt.text.toList.length ≤ c.settings.maxChunkSize →
      CoveredBy (r.staged c (getDocumentChunkCount doc)) rt p) ∧
    (r.staged c (getDocumentChunkCount doc)).map StagedChunk.chunkIndex =
      List.range' (getDocumentChunkCount doc)
        (r.staged c (getDocumentChunkCount doc)).length := by
  refine ⟨accounts_redactTurns c.redactText r.redactInput, ?_, ?_, ?_, ?_⟩
  · intro chunk hchunk
    exact existsUnique_sliceOf_staged hchunk
  · intro r' hdoc hsame
    exact ⟨withoutMeta_staged_congr _ hdoc hsame, staged_congr _ hdoc hsame⟩
  · intro hmax rt hrt p ch hp hch
    exact coveredBy_chunkConversation hmax hrt hp hch
  · exact chunkConversation_chunkIndex c.settings (r.chunkInput c) (getDocumentChunkCount doc)

/-- Small chunks, and rules that fail on one text. -/
def smallChunks : ConversationConfig where
  redactText := fun text =>
    if text = "secret" then .error ⟨"generic", "ValueError", "bad pattern"⟩ else .ok (text, [])
  settings := { maxChunkSize := 4, chunkOverlap := 0 }

/-- A batch of user turns, given by their ids, texts and times. -/
def sampleFlush (turns : List (String × String × String)) : FlushRecord where
  workflowRunId := "run"
  workspaceId := "ws"
  documentId := "conv-ws-chat"
  turns := turns.map fun t => { turnId := t.1, role := "user", text := t.2.1, ts := t.2.2 }

/-- A turn with more blanks inside than a chunk has characters. -/
def spacedFlush : FlushRecord := sampleFlush [("t1", "hi        yo", "10:00")]

theorem staged_noninterference_spacedFlush :
    spacedFlush.staged smallChunks (getDocumentChunkCount none) ≠ [] ∧
      ∀ rt ∈ spacedFlush.redacted smallChunks, ∀ ch, rt.text.toList[10]? = some ch →
        PyStr.isSpace ch = false ∨ rt.text.toList.length ≤ smallChunks.settings.maxChunkSize →
        CoveredBy (spacedFlush.staged smallChunks (getDocumentChunkCount none)) rt 10 :=
  ⟨by decide, fun rt hrt ch => (staged_noninterference smallChunks spacedFlush none).2.2.2.1
    (by decide) rt hrt 10 ch⟩

/-- Equal redacted output does not fix the chunks: the `ts` of the raw buffer is in them, and
    so is the position of a turn, which the ids, texts and drop lists leave open.  The blanks
    in the middle of a long turn are in the span of no chunk. -/
theorem not_noninterference_smallChunks :
    ((redactTurns smallChunks.redactText (sampleFlush [("t1", "hi", "10:05")]).redactInput).1 =
        (redactTurns smallChunks.redactText (sampleFlush [("t1", "hi", "10:00")]).redactInput).1 ∧
      (sampleFlush [("t1", "hi", "10:05")]).staged smallChunks 0 ≠
        (sampleFlush [("t1", "hi", "10:00")]).staged smallChunks 0) ∧
    (let r := sampleFlush [("t1", "hi", "10:00"), ("t2", "secret", "10:00")]
      let r' := sampleFlush [("t2", "secret", "10:00"), ("t1", "hi", "10:00")]
      (r.redacted smallChunks).map (fun rt => (rt.turnId, rt.role, rt.text)) =
          (r'.redacted smallChunks).map (fun rt => (rt.turnId, rt.role, rt.text)) ∧
        (redactTurns smallChunks.redactText r.redactInput).1.droppedTurnIds =
          (redactTurns smallChunks.redactText r'.redactInput).1.droppedTurnIds ∧
        r.staged smallChunks 0 ≠ r'.staged smallChunks 0) ∧
    ∃ rt ∈ spacedFlush.redacted smallChunks, PyStr.strip rt.text.toList ≠ [] ∧
      ∃ p < rt.text.toList.length, ∀ chunk ∈ spacedFlush.staged smallChunks 0,
        ¬ (chunk.startChar ≤ p ∧ p < chunk.endChar) := by
  refine ⟨⟨by decide, by decide⟩, ⟨by decide, by decide, by decide⟩, ?_⟩
  exact ⟨_, List.mem_singleton_self _, by decide, 5, by decide, by decide⟩

end FlushRecord

namespace ConversationSystem

/-- In every run of a conversation, every chunk of a staged row is a slice of exactly one
    redacted turn of the flush that staged it. -/
theorem existsUnique_sliceOf_staging {c : ConversationConfig} {input : ConversationMemoryInput}
    {runId : RunId} {now : Timestamp} {es : List SystemEvent} {s : ConversationSystem}
    (hrun : EventRun.exec (step c) (start input runId now) es = some s) {runId' : RunId}
    {row : StagedRow} (hrow : s.staging runId' = some row) :
    ∃ r, s.flushes[row.flushNo]? = some r ∧ ∀ chunk ∈ row.chunks,
      ∃! rt, rt ∈ r.redacted c ∧ ∃ a b, chunk.SliceOf rt a b := by
  have hlabelled : Labelled c s := EventRun.exec_invariant
    (fun _ _ _ h hstep => labelled_step h (transition_of_step hstep))
    (labelled_start c input runId now) hrun
  obtain ⟨r, hr, start, hchunks⟩ := hlabelled.staging runId' row hrow
  refine ⟨r, hr, ?_⟩
  intro chunk hchunk
  rw [hchunks] at hchunk
  exact FlushRecord.existsUnique_sliceOf_staged hchunk

end ConversationSystem

end Inherent
