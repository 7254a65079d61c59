import Inherent.ForStd.Fence
import Inherent.ForStd.Run
import Inherent.Spec.Database
import Mathlib

/-!
# Run fencing of one document

Any number of `DocumentIngestionWorkflow` runs on one document: their claims
(`create_pending_document`), their replacing stores and their fenced status
writes, in any order and with any retries, as long as a run claims before it
writes.  The three SQL guards are one `Fence` keyed by the run's start time, so the
owner of the row is always the latest-started run whose claim has landed.

Content and status are then ordered by start time, each on its own: a run that has
claimed the row and set its status owns the status while the content is still that
of an earlier run.
-/

namespace Inherent

open EventRun

/-! ## The guards as a fence -/

/-- The fence of the row: who claimed it, and the start time of that run. -/
def fence : Option Document → Fence RunId Timestamp
  | none => .unclaimed
  | some d => ⟨d.row.activeRunId, d.row.activeRunClaimedAt⟩

theorem isActiveRun_iff_permits (r : RunId) (doc : Option Document) :
    isActiveRun r doc ↔ (fence doc).Permits r := by
  cases doc with
  | none => exact ⟨fun _ => Or.inl rfl, fun _ => isActiveRun_none r⟩
  | some d => exact isActiveRun_some r d

/-- The claim `UPDATE` is a claim of the row's fence. -/
private theorem fence_claim (c : PendingCall) (row : ProcessedDocument) :
    (⟨(c.claim row).activeRunId, (c.claim row).activeRunClaimedAt⟩ : Fence RunId Timestamp) =
      Fence.claim ⟨row.activeRunId, row.activeRunClaimedAt⟩ c.workflowRunId
        c.workflowStartTime := by
  simp only [PendingCall.claim, Fence.claim]
  split <;> rfl

/-- `create_pending_document` is a claim of the fence. -/
theorem fence_createPendingDocument (c : PendingCall) (doc : Option Document) :
    fence (createPendingDocument c doc).1 =
      (fence doc).claim c.workflowRunId c.workflowStartTime := by
  cases doc with
  | none =>
    -- the row is inserted with the caller's own claim, which the guard then accepts
    show Fence.mk _ _ = _
    rw [fence_claim]
    simp [fence, PendingCall.insertValues, Fence.claim, Fence.unclaimed]
  | some d => exact fence_claim c d.row

/-- A store that takes effect makes its run the owner and keeps the claim's time. -/
theorem fence_storeProcessedDocument (c : StoreCall) (d : Document)
    (h : isActiveRun c.workflowRunId (some d)) :
    fence (storeProcessedDocument c (some d)).1 =
      ⟨some c.workflowRunId, (fence (some d)).stamp⟩ := by
  rw [storeProcessedDocument_of_isActiveRun c _ h]
  simp [fence, StoreCall.upsert, StoreCall.updateSet]

/-- A status write leaves the fence alone. -/
theorem fence_updateDocumentStatus (c : StatusCall) (doc : Option Document) :
    fence (updateDocumentStatus c doc).1 = fence doc := by
  cases doc with
  | none => rfl
  | some d =>
    simp only [updateDocumentStatus]
    split <;> rfl

/-! ## The runs -/

/-- A write to the document. -/
inductive FencedWrite where
  | claim (c : PendingCall)
  | store (c : StoreCall)
  | status (c : StatusCall)
  deriving DecidableEq

/-- The document, the runs whose claim has landed, the stores that took effect and the
    statuses written by stores and status writes that took effect, in order. -/
structure FencedRuns where
  doc : Option Document
  claimed : List RunId := []
  stored : List StoreCall := []
  written : List (RunId × DocumentStatus) := []
  deriving DecidableEq

/-- The content of the document is what the store `c` wrote. -/
structure StoreCall.IsContentOf (c : StoreCall) (d : Document) : Prop where
  chunks_eq : d.chunks = UniqueTable.empty.insertAll c.chunkValues
  chunkCount_eq : d.row.chunkCount = c.chunks.length
  textLength_eq : d.row.textLength = c.textLength
  sizeBytes_eq : d.row.sizeBytes = c.message.sizeBytes

namespace FencedRuns

variable (start : RunId → Timestamp)

/-- One write.  A claim carries its run's start time, which no other run has; stores
    replace the document and come, as status writes do, from a run that has claimed. -/
def step (s : FencedRuns) : FencedWrite → Option FencedRuns
  | .claim c =>
    if c.workflowStartTime = start c.workflowRunId ∧
        ∀ r ∈ s.claimed, start r = start c.workflowRunId → r = c.workflowRunId then
      some { s with doc := (createPendingDocument c s.doc).1
                    claimed := c.workflowRunId :: s.claimed }
    else none
  | .store c =>
    if c.append = false ∧ c.workflowRunId ∈ s.claimed then
      match storeProcessedDocument c s.doc with
      | (doc, none) => some { s with doc := doc }
      | (doc, some _) =>
        some { s with doc := doc
                      stored := s.stored ++ [c]
                      written := s.written ++ [(c.workflowRunId, .processed)] }
    else none
  | .status c =>
    match c.workflowRunId with
    | none => none
    | some r =>
      if r ∈ s.claimed then
        match updateDocumentStatus c s.doc with
        | (doc, false) => some { s with doc := doc }
        | (doc, true) => some { s with doc := doc, written := s.written ++ [(r, c.status)] }
      else none

/-- No write of a run takes effect once a later-started run has claimed. -/
def LateWritesRefused (s : FencedRuns) : Prop :=
  ∀ r ∈ s.claimed, ∀ r' ∈ s.claimed, start r < start r' →
    (∀ c : StoreCall, c.workflowRunId = r →
      storeProcessedDocument c s.doc = (s.doc, none)) ∧
    ∀ c : StatusCall, c.workflowRunId = some r → updateDocumentStatus c s.doc = (s.doc, false)

/-- What fencing gives: late writes are refused, the start times of the committed
    contents never decrease, and content and status are each the last that took effect,
    written by the latest-started of their writers. -/
structure IsFenced (s : FencedRuns) : Prop where
  late_refused : LateWritesRefused start s
  stored_mono : s.stored.Pairwise fun c c' => start c.workflowRunId ≤ start c'.workflowRunId
  content_last : ∀ c ∈ s.stored.getLast?, ∃ d, s.doc = some d ∧ c.IsContentOf d ∧
    ∀ c' ∈ s.stored, start c'.workflowRunId ≤ start c.workflowRunId
  status_last : ∀ w ∈ s.written.getLast?, ∃ d, s.doc = some d ∧ d.row.status = w.2 ∧
    ∀ w' ∈ s.written, start w'.1 ≤ start w.1

/-! ## What one write preserves -/

/-- The claims of the runs, as the fence sees them. -/
private def claims (s : FencedRuns) : List (RunId × Timestamp) :=
  s.claimed.map fun r => (r, start r)

/-- Everything that took effect came from a claimed run, and the fence is at the
    latest-started claim. -/
private structure Inv (s : FencedRuns) : Prop where
  tracks : (fence s.doc).Tracks (claims start s)
  distinct : Fence.Distinct (claims start s)
  exists_of_claimed : s.claimed ≠ [] → s.doc ≠ none
  stored_claimed : ∀ c ∈ s.stored, c.workflowRunId ∈ s.claimed
  written_claimed : ∀ w ∈ s.written, w.1 ∈ s.claimed
  stored_mono : s.stored.Pairwise fun c c' => start c.workflowRunId ≤ start c'.workflowRunId
  written_mono : s.written.Pairwise fun w w' => start w.1 ≤ start w'.1
  content : ∀ c ∈ s.stored.getLast?, ∃ d, s.doc = some d ∧ c.IsContentOf d
  status : ∀ w ∈ s.written.getLast?, ∃ d, s.doc = some d ∧ d.row.status = w.2

variable {start}

private theorem mem_claims {s : FencedRuns} {r : RunId} (h : r ∈ s.claimed) :
    (r, start r) ∈ claims start s :=
  List.mem_map.mpr ⟨r, h, rfl⟩

/-- A permitted run has the latest start among the runs that claimed. -/
private theorem Inv.le_of_isActiveRun {s : FencedRuns} (h : Inv start s) {r r' : RunId}
    (hr : r ∈ s.claimed) (hact : isActiveRun r s.doc) (hr' : r' ∈ s.claimed) :
    start r' ≤ start r :=
  h.tracks.le_of_permits h.distinct (mem_claims hr)
    ((isActiveRun_iff_permits r s.doc).mp hact) (mem_claims hr')

/-- A claim changes who owns the row and nothing that a run committed. -/
private theorem createPendingDocument_keeps (c : PendingCall) (d : Document) :
    ∃ d', (createPendingDocument c (some d)).1 = some d' ∧ d'.row.status = d.row.status ∧
      ∀ k : StoreCall, k.IsContentOf d → k.IsContentOf d' := by
  refine ⟨_, rfl, ?_, fun k hk => ?_⟩
  · simp only [PendingCall.claim]
    split <;> rfl
  · obtain ⟨h1, h2, h3, h4⟩ := hk
    simp only [PendingCall.claim]
    split <;> exact ⟨h1, h2, h3, h4⟩

private theorem inv_claim {s : FencedRuns} {c : PendingCall} (h : Inv start s)
    (hstart : c.workflowStartTime = start c.workflowRunId)
    (hfresh : ∀ r ∈ s.claimed, start r = start c.workflowRunId → r = c.workflowRunId) :
    Inv start { s with doc := (createPendingDocument c s.doc).1
                       claimed := c.workflowRunId :: s.claimed } := by
  have hkeep : ∀ d, s.doc = some d → ∃ d', (createPendingDocument c s.doc).1 = some d' ∧
      d'.row.status = d.row.status ∧ ∀ k : StoreCall, k.IsContentOf d → k.IsContentOf d' := by
    intro d hd
    rw [hd]
    exact createPendingDocument_keeps c d
  refine ⟨?_, ?_, ?_, ?_, ?_, h.stored_mono, h.written_mono, ?_, ?_⟩
  · rw [fence_createPendingDocument, hstart]
    exact h.tracks.claim c.workflowRunId (start c.workflowRunId)
  · -- all claims have the stamp that `start` gives their run, so only equal stamps matter
    have hinj : ∀ r ∈ c.workflowRunId :: s.claimed, ∀ r' ∈ c.workflowRunId :: s.claimed,
        start r = start r' → r = r' := by
      intro r hr r' hr' heq
      cases List.mem_cons.mp hr with
      | inl hrc =>
        cases List.mem_cons.mp hr' with
        | inl hrc' => rw [hrc, hrc']
        | inr hr' => rw [hrc]; exact (hfresh r' hr' (by rw [← heq, hrc])).symm
      | inr hr =>
        cases List.mem_cons.mp hr' with
        | inl hrc' => rw [hrc']; exact hfresh r hr (by rw [heq, hrc'])
        | inr hr' =>
          exact (h.distinct _ (mem_claims hr) _ (mem_claims hr')).mpr heq
    intro p hp q hq
    obtain ⟨r, hr, rfl⟩ := List.mem_map.mp hp
    obtain ⟨r', hr', rfl⟩ := List.mem_map.mp hq
    exact ⟨fun e => congrArg start e, hinj r hr r' hr'⟩
  · intro _
    -- a claim inserts the row where there is none
    cases s.doc <;> exact Option.some_ne_none _
  · intro k hk
    exact List.mem_cons_of_mem _ (h.stored_claimed k hk)
  · intro w hw
    exact List.mem_cons_of_mem _ (h.written_claimed w hw)
  · intro k hk
    obtain ⟨d, hd, hcont⟩ := h.content k hk
    obtain ⟨d', hd', -, hkeeps⟩ := hkeep d hd
    exact ⟨d', hd', hkeeps k hcont⟩
  · intro w hw
    obtain ⟨d, hd, hst⟩ := h.status w hw
    obtain ⟨d', hd', hst', -⟩ := hkeep d hd
    exact ⟨d', hd', hst'.trans hst⟩

/-- A replacing store leaves its own content. -/
private theorem isContentOf_store {c : StoreCall} (d : Document) (happ : c.append = false) :
    c.IsContentOf (c.writeChunks false (c.upsert (some d))) where
  chunks_eq := by simp only [StoreCall.writeChunks, happ, Bool.false_eq_true, if_false]
  chunkCount_eq := by simp [StoreCall.writeChunks, happ, StoreCall.upsert, StoreCall.updateSet]
  textLength_eq := by simp [StoreCall.writeChunks, happ, StoreCall.upsert, StoreCall.updateSet]
  sizeBytes_eq := by simp [StoreCall.writeChunks, happ, StoreCall.upsert, StoreCall.updateSet]

private theorem inv_store {s : FencedRuns} {c : StoreCall} (h : Inv start s)
    (happ : c.append = false) (hc : c.workflowRunId ∈ s.claimed)
    (hact : isActiveRun c.workflowRunId s.doc) :
    Inv start { s with doc := (storeProcessedDocument c s.doc).1
                       stored := s.stored ++ [c]
                       written := s.written ++ [(c.workflowRunId, .processed)] } := by
  obtain ⟨d, hd⟩ := Option.ne_none_iff_exists'.mp
    (h.exists_of_claimed (List.ne_nil_of_mem hc))
  have hdoc : (storeProcessedDocument c s.doc).1 =
      some (c.writeChunks false (c.upsert (some d))) := by
    rw [storeProcessedDocument_of_isActiveRun c _ hact, hd]
    rfl
  have hfence : fence (storeProcessedDocument c s.doc).1 = fence s.doc := by
    -- the run that the fence permits is its owner, so the store writes the claim back as it was
    have howner := h.tracks.owner_of_permits (mem_claims hc)
      ((isActiveRun_iff_permits _ s.doc).mp hact)
    rw [hd] at hact howner ⊢
    rw [fence_storeProcessedDocument c d hact, ← howner]
  refine ⟨?_, h.distinct, ?_, ?_, ?_, ?_, ?_, ?_, ?_⟩
  · exact hfence ▸ h.tracks
  · intro _
    rw [hdoc]
    exact Option.some_ne_none _
  · intro k hk
    cases List.mem_append.mp hk with
    | inl hk => exact h.stored_claimed k hk
    | inr hk => exact List.mem_singleton.mp hk ▸ hc
  · intro w hw
    cases List.mem_append.mp hw with
    | inl hw => exact h.written_claimed w hw
    | inr hw => rw [List.mem_singleton.mp hw]; exact hc
  · refine List.pairwise_append.mpr ⟨h.stored_mono, List.pairwise_singleton _ _, ?_⟩
    -- every earlier content is of a run that had claimed, and the permitted run started last
    intro k hk k' hk'
    rw [List.mem_singleton.mp hk']
    exact h.le_of_isActiveRun hc hact (h.stored_claimed k hk)
  · refine List.pairwise_append.mpr ⟨h.written_mono, List.pairwise_singleton _ _, ?_⟩
    intro w hw w' hw'
    rw [List.mem_singleton.mp hw']
    exact h.le_of_isActiveRun hc hact (h.written_claimed w hw)
  · intro k hk
    rw [List.getLast?_concat, Option.mem_def, Option.some.injEq] at hk
    exact ⟨_, hdoc, hk ▸ isContentOf_store d happ⟩
  · intro w hw
    rw [List.getLast?_concat, Option.mem_def, Option.some.injEq] at hw
    exact ⟨_, hdoc, by rw [← hw, c.writeChunks_status, c.upsert_status]⟩

private theorem inv_status {s : FencedRuns} {c : StatusCall} {r : RunId} (h : Inv start s)
    (hr : c.workflowRunId = some r) (hc : r ∈ s.claimed) (hact : isActiveRun r s.doc) :
    Inv start { s with doc := (updateDocumentStatus c s.doc).1
                       written := s.written ++ [(r, c.status)] } := by
  obtain ⟨d, hd⟩ := Option.ne_none_iff_exists'.mp
    (h.exists_of_claimed (List.ne_nil_of_mem hc))
  have hdoc : (updateDocumentStatus c s.doc).1 = some { d with row := c.set d.row } := by
    rw [hd] at hact ⊢
    rw [updateDocumentStatus_of_isActiveRun c r d hr hact]
  refine ⟨?_, h.distinct, ?_, h.stored_claimed, ?_, h.stored_mono, ?_, ?_, ?_⟩
  · exact (fence_updateDocumentStatus c s.doc).symm ▸ h.tracks
  · intro _
    rw [hdoc]
    exact Option.some_ne_none _
  · intro w hw
    cases List.mem_append.mp hw with
    | inl hw => exact h.written_claimed w hw
    | inr hw => rw [List.mem_singleton.mp hw]; exact hc
  · refine List.pairwise_append.mpr ⟨h.written_mono, List.pairwise_singleton _ _, ?_⟩
    intro w hw w' hw'
    rw [List.mem_singleton.mp hw']
    exact h.le_of_isActiveRun hc hact (h.written_claimed w hw)
  · intro k hk
    obtain ⟨d', hd', hcont⟩ := h.content k hk
    obtain rfl : d = d' := Option.some.inj (hd.symm.trans hd')
    exact ⟨_, hdoc, hcont.1, hcont.2, hcont.3, hcont.4⟩
  · intro w hw
    rw [List.getLast?_concat, Option.mem_def, Option.some.injEq] at hw
    exact ⟨_, hdoc, by rw [← hw]; rfl⟩

private theorem inv_step (s : FencedRuns) (e : FencedWrite) (s' : FencedRuns)
    (h : Inv start s) (hstep : s.step start e = some s') : Inv start s' := by
  cases e with
  | claim c =>
    simp only [step] at hstep
    split at hstep
    · rename_i hc
      obtain rfl := Option.some.inj hstep
      exact inv_claim h hc.1 hc.2
    · exact nomatch hstep
  | store c =>
    simp only [step] at hstep
    split at hstep
    · rename_i hc
      -- a store that the fence refuses changes nothing and is not recorded
      by_cases hact : isActiveRun c.workflowRunId s.doc
      · have hinv := inv_store h hc.1 hc.2 hact
        rw [storeProcessedDocument_of_isActiveRun c s.doc hact] at hstep hinv
        exact Option.some.inj hstep ▸ hinv
      · rw [storeProcessedDocument_of_not_isActiveRun c s.doc hact] at hstep
        exact Option.some.inj hstep ▸ h
    · exact nomatch hstep
  | status c =>
    simp only [step] at hstep
    cases hr : c.workflowRunId with
    | none => simp only [hr] at hstep; exact nomatch hstep
    | some r =>
      simp only [hr] at hstep
      split at hstep
      · rename_i hc
        by_cases hact : isActiveRun r s.doc
        · have hinv := inv_status h hr hc hact
          obtain ⟨d, hd⟩ := Option.ne_none_iff_exists'.mp
            (h.exists_of_claimed (List.ne_nil_of_mem hc))
          rw [hd] at hact
          rw [hd, updateDocumentStatus_of_isActiveRun c r d hr hact] at hstep hinv
          exact Option.some.inj hstep ▸ hinv
        · rw [updateDocumentStatus_of_not_isActiveRun c r s.doc hr hact] at hstep
          exact Option.some.inj hstep ▸ h
      · exact nomatch hstep

private theorem inv_init {doc : Option Document} (h : fence doc = .unclaimed) :
    Inv start { doc := doc } := by
  refine ⟨h ▸ Fence.tracks_unclaimed, ?_, fun hne => absurd rfl hne, ?_, ?_,
    List.Pairwise.nil, List.Pairwise.nil, ?_, ?_⟩
  all_goals
    intro x hx
    exact nomatch hx

/-- The last of a list that is ordered by `start` has the latest start. -/
private theorem le_getLast? {α : Type} (f : α → Timestamp) {l : List α} {a b : α}
    (h : l.Pairwise fun x y => f x ≤ f y) (hlast : l.getLast? = some a) (hb : b ∈ l) :
    f b ≤ f a := by
  obtain ⟨l', rfl⟩ := List.getLast?_eq_some_iff.mp hlast
  cases List.mem_append.mp hb with
  | inl hb => exact (List.pairwise_append.mp h).2.2 b hb a List.mem_cons_self
  | inr hb => exact List.mem_singleton.mp hb ▸ Nat.le_refl _

/-! ## Every interleaving -/

/-- In every state that the runs can reach from an unclaimed document, late writes are
    refused, committed contents are ordered by start time, and content and status are
    those of the latest-started run that committed each. -/
theorem isFenced_of_run (doc : Option Document) (hdoc : fence doc = .unclaimed)
    (es : List FencedWrite) (s : FencedRuns)
    (hrun : exec (step start) { doc := doc } es = some s) : IsFenced start s := by
  have h : Inv start s := exec_invariant inv_step (inv_init hdoc) hrun
  refine ⟨fun r hr r' hr' hlt => ?_, h.stored_mono, fun c hc => ?_, fun w hw => ?_⟩
  · -- a run that started before another claim is not the one that the fence permits
    have hna : ¬ isActiveRun r s.doc := fun hact =>
      Nat.not_le_of_lt hlt (h.le_of_isActiveRun hr hact hr')
    refine ⟨fun c hc => ?_, fun c hc => ?_⟩
    · exact storeProcessedDocument_of_not_isActiveRun c s.doc (hc ▸ hna)
    · exact updateDocumentStatus_of_not_isActiveRun c r s.doc hc hna
  · obtain ⟨d, hd, hcont⟩ := h.content c hc
    exact ⟨d, hd, hcont, fun c' hc' => le_getLast? (fun k => start k.workflowRunId) h.stored_mono hc hc'⟩
  · obtain ⟨d, hd, hst⟩ := h.status w hw
    exact ⟨d, hd, hst, fun w' hw' => le_getLast? (fun w => start w.1) h.written_mono hw hw'⟩

/-- The claim of the run, as `create_pending_document` gets it. -/
def sampleClaim (run : RunId) (start : Timestamp) : PendingCall where
  now := start
  documentId := "doc"
  workspaceId := "ws"
  userId := "user"
  filename := "a.txt"
  originalFilename := "a.txt"
  contentType := "text/plain"
  sizeBytes := 5
  storageBackend := "local"
  storagePath := "ws/doc/a.txt"
  workflowRunId := run
  workflowStartTime := start

/-- The store of the run: one chunk with the text. -/
def sampleStore (run : RunId) (now : Timestamp) (text : String) : StoreCall where
  now := now
  message := {
    documentId := "doc"
    workspaceId := "ws"
    userId := "user"
    filename := "a.txt"
    originalFilename := "a.txt"
    contentType := "text/plain"
    sizeBytes := 5
    storageBackend := "local"
    storagePath := "ws/doc/a.txt"
    timestamp := "" }
  chunks := [{ documentId := "doc", content := text, chunkIndex := 0, startChar := 0,
               endChar := 5, tokenCount := none, metadata := none }]
  textLength := 5
  processingTimeMs := 1
  workflowRunId := run

/-- The start times of the two runs. -/
def sampleStart (run : RunId) : Timestamp := if run = "A" then 1 else 2

/-- `A` claims and stores; `B`, started later, claims, sets `processing` and stores, with
    late retries of `A` between. -/
def sampleWrites : List FencedWrite :=
  [.claim (sampleClaim "A" 1), .store (sampleStore "A" 3 "first"), .claim (sampleClaim "B" 2),
    .status { now := 4, status := .processing, workflowRunId := some "B" },
    .store (sampleStore "A" 5 "first"), .claim (sampleClaim "A" 1),
    .store (sampleStore "B" 6 "second"),
    .status { now := 7, status := .failed, workflowRunId := some "A" }]

theorem isFenced_sampleWrites :
    ∃ s, exec (step sampleStart) { doc := none } sampleWrites = some s ∧
      s.stored.map StoreCall.workflowRunId = ["A", "B"] ∧ IsFenced sampleStart s :=
  ⟨_, rfl, rfl, isFenced_of_run none rfl sampleWrites _ rfl⟩

/-- Content and status both belong to the run `r`: it made the last store and wrote the
    last status. -/
def OwnsOutcome (s : FencedRuns) (r : RunId) : Prop :=
  s.stored.getLast?.map StoreCall.workflowRunId = some r ∧
    s.written.getLast?.map Prod.fst = some r

instance (s : FencedRuns) (r : RunId) : Decidable (s.OwnsOutcome r) :=
  inferInstanceAs (Decidable (_ ∧ _))

/-- After `B` has claimed and set `processing`, the content is that of `A` and the status
    that of `B`: the latest-started run among those that committed content does not own
    both. -/
theorem not_ownsOutcome_latest :
    ¬ ∀ (start : RunId → Timestamp) (es : List FencedWrite) (s : FencedRuns),
      exec (step start) { doc := none } es = some s →
      ∀ c ∈ s.stored, (∀ c' ∈ s.stored, start c'.workflowRunId ≤ start c.workflowRunId) →
        s.OwnsOutcome c.workflowRunId := by
  intro h
  have hrun := h sampleStart (sampleWrites.take 4) _ rfl (sampleStore "A" 3 "first")
  revert hrun
  decide

end FencedRuns

end Inherent
