import Inherent.Spec.ConversationSystem

/-!
# Staging isolation

Staged chunks are keyed by the run id alone, and `asyncio.gather` returns on the first
failure, so an attempt of a store activity can outlive its flush and read what a later
flush has staged.  A store attempt reads and writes the batch of its own flush in every
run in which no other flush has written the row when it reads; nothing else can mix the
batches.
-/

namespace Inherent

open EventRun

namespace ConversationSystem

/-- Every chunk list that a store attempt has read, and every one that was written to a
    store, is the batch of the flush that the attempt was issued for. -/
structure Isolated (c : ConversationConfig) (s : ConversationSystem) : Prop where
  reads : ∀ flushNo target input phase, .store flushNo target input phase ∈ s.attempts →
    ∀ chunks ∈ phase.chunks?, BatchAt c s flushNo chunks
  writes : ∀ w ∈ s.writes, BatchAt c s w.flushNo w.chunks

/-- A store attempt that reads a staged row finds the one that `chunk_conversation` of its
    own flush wrote last. -/
def ReadsOwnRow (s : ConversationSystem) : SystemEvent → Prop
  | .readStaging k =>
    match s.attempts[k]? with
    | some (.store flushNo _ input .started) =>
      ∀ row ∈ s.staging input.workflowRunId, row.flushNo = flushNo
    | _ => True
  | _ => True

instance (s : ConversationSystem) : ∀ e, Decidable (ReadsOwnRow s e)
  | .readStaging k =>
    let rec ofAttempt : ∀ attempt : Option Attempt, Decidable (match attempt with
        | some (.store flushNo _ input .started) =>
          ∀ row ∈ s.staging input.workflowRunId, row.flushNo = flushNo
        | _ => True)
      | some (.store _ _ _ .started) => inferInstanceAs (Decidable (∀ row, row ∈ _ → _))
      | none | some (.chunk ..) | some (.store _ _ _ (.read _))
      | some (.store _ _ _ (.permitted _)) | some (.store _ _ _ (.finished ..)) => isTrue trivial
    ofAttempt s.attempts[k]?
  | .workflow _ | .redactTurns .. | .readChunkCount _ | .stageChunks _ | .chunkDone _
  | .checkFence _ | .commit .. | .storeDone _ | .retry _ | .recordDeadLetter | .cleanupStaging
  | .deleteStaging _ | .nextRun .. => isTrue trivial

/-! ## What one event preserves -/

private theorem reads_step {c : ConversationConfig} {s s' : ConversationSystem}
    {e : SystemEvent} (hl : Labelled c s) (h : Isolated c s) (hown : ReadsOwnRow s e)
    (hstep : s.Transition c e s') (flushNo : Nat) (target : StoreTarget)
    (input : StoreDocumentInput) (phase : StorePhase)
    (hmem : .store flushNo target input phase ∈ s'.attempts) (chunks : List StagedChunk)
    (hchunks : chunks ∈ phase.chunks?) : BatchAt c s' flushNo chunks := by
  have hreads : ReadBatches c s fun _ _ => True :=
    fun no t inp p hmem _ => h.reads no t inp p hmem
  have hrow : ∀ k no t inp row, e = .readStaging k →
      s.attempts[k]? = some (.store no t inp .started) →
      s.staging inp.workflowRunId = some row → True → row.flushNo = no := by
    intro k no t inp row he ha hrow _
    subst he
    simp only [ReadsOwnRow, ha] at hown
    exact hown row hrow
  exact readBatches_step hl hreads hrow hstep flushNo target input phase hmem trivial chunks
    hchunks

private theorem writes_step {c : ConversationConfig} {s s' : ConversationSystem}
    {e : SystemEvent} (h : Isolated c s) (hstep : s.Transition c e s') (w : StoreWrite)
    (hw : w ∈ s'.writes) : BatchAt c s' w.flushNo w.chunks := by
  cases hstep with
  | timer e run he hrun => exact (h.writes w hw).append rfl
  | committedPg k now no inp chunks ha =>
    have hread := h.reads no .postgresql inp _ (List.mem_of_getElem? ha) chunks rfl
    -- a commit that the fence refuses writes nothing; another one writes what the attempt has read
    dsimp only at hw
    split at hw
    · cases List.mem_append.mp hw with
      | inl hw => exact h.writes w hw
      | inr hw => rw [List.mem_singleton.mp hw]; exact hread
    · exact h.writes w hw
  | committedWv k now no inp chunks output ha =>
    have hread := h.reads no .weaviate inp _ (List.mem_of_getElem? ha) chunks rfl
    cases List.mem_append.mp hw with
    | inl hw => exact h.writes w hw
    | inr hw => rw [List.mem_singleton.mp hw]; exact hread
  | _ => exact h.writes w hw

private theorem isolated_step (c : ConversationConfig) (s : ConversationSystem)
    (e : SystemEvent) (s' : ConversationSystem) (h : Labelled c s ∧ Isolated c s)
    (hown : ReadsOwnRow s e) (hstep : s.step c e = some s') : Labelled c s' ∧ Isolated c s' := by
  have ht := transition_of_step hstep
  exact ⟨labelled_step h.1 ht, reads_step h.1 h.2 hown ht, writes_step h.2 ht⟩

/-! ## Every run -/

/-- The Weaviate store of the first flush fails for good while the PostgreSQL attempt has
    not read staging yet; it reads after the second flush has staged. -/
def readAfterNextFlush : List SystemEvent :=
  firstFlush ++ [.workflow (.store .weaviate (.failed "ActivityError: Activity task failed")),
    turnSignal "t2" "there", .recordDeadLetter, .workflow .conditionMet, .redactTurns [] none,
    .readChunkCount 3, .stageChunks 3, .readStaging 1, .commit 1 9]

/-- The contents of a write are those of its flush when batches are isolated. -/
private theorem contents_of_isolated {c : ConversationConfig} {s : ConversationSystem}
    (h : Isolated c s) : ∀ w ∈ s.writes, ∃ r ∈ s.flushes[w.flushNo]?,
      w.chunks.map StagedChunk.content =
        ((r.chunkInput c).turnPieces c.settings).map fun p => p.2.1 := by
  intro w hw
  obtain ⟨r, hr, start, hchunks⟩ := h.writes w hw
  exact ⟨r, hr, hchunks ▸ chunkConversation_content c.settings (r.chunkInput c) start⟩

end ConversationSystem

end Inherent
