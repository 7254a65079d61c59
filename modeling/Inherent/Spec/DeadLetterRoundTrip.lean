import Inherent.Native.DeadLetter

/-!
# Dead-letter payloads

What each writer of the dead-letter table puts into `original_message`, and what the trigger
makes of it.  A payload of a failed document run is parsed whenever its size and its backend
are valid, but it lacks `uploaded_by`, `source_url` and the chunking overrides, so the run that
a retry starts agrees with the failed one exactly when these had their defaults.  A payload of
a failed flush, and a message that was poison once, are never parsed.
-/

namespace Inherent

/-! ## The payload of a failed document run -/

/-- What the parser makes of a reconstructed message. -/
def DocumentIngestionInput.uploadMessage (input : DocumentIngestionInput) :
    DocumentUploadMessage where
  documentId := input.documentId
  workspaceId := input.workspaceId
  userId := input.userId
  filename := input.filename
  originalFilename := input.originalFilename
  contentType := input.contentType
  sizeBytes := input.sizeBytes
  storageBackend := input.storageBackend
  storagePath := input.storagePath
  storageBucket := input.storageBucket
  storageUrl := input.storageUrl
  timestamp := input.timestamp

/-- The input passes the checks of `DocumentUploadMessage`. -/
def DocumentIngestionInput.valid (input : DocumentIngestionInput) : Bool :=
  0 < input.sizeBytes ∧ input.storageBackend ∈ storageBackends

/-- `None` and a string both survive the payload. -/
theorem unwrapAvroUnion_ofOption (value : Option String) :
    (JsonValue.ofOption value).unwrapAvroUnion = value := by
  cases value <;> rfl

/-- The fields that the reconstructed message holds. -/
private theorem required_reconstructOriginalMessage (input : DocumentIngestionInput) :
    let message := input.reconstructOriginalMessage
    message.required "event_type" = some "document.uploaded" ∧
      message.required "document_id" = some input.documentId ∧
      message.required "workspace_id" = some input.workspaceId ∧
      message.required "user_id" = some input.userId ∧
      message.required "filename" = some input.filename ∧
      message.required "original_filename" = some input.originalFilename ∧
      message.required "content_type" = some input.contentType ∧
      message.lookup "size_bytes" = some (.int input.sizeBytes) ∧
      message.required "storage_backend" = some input.storageBackend ∧
      message.required "storage_path" = some input.storagePath ∧
      message.optional "storage_bucket" = input.storageBucket ∧
      message.optional "storage_url" = input.storageUrl ∧
      message.required "timestamp" = some input.timestamp :=
  ⟨rfl, rfl, rfl, rfl, rfl, rfl, rfl, rfl, rfl, rfl, unwrapAvroUnion_ofOption _,
    unwrapAvroUnion_ofOption _, rfl⟩

/-- The fields that it lacks. -/
private theorem absent_reconstructOriginalMessage (input : DocumentIngestionInput) :
    let message := input.reconstructOriginalMessage
    message.optional "uploaded_by" = none ∧ message.lookup "contract_version" = none ∧
      message.optional "source" = none ∧ message.optional "connection_id" = none ∧
      message.optional "sync_id" = none ∧ message.lookup "source_url" = none :=
  ⟨rfl, rfl, rfl, rfl, rfl, rfl⟩

/-- The reconstructed message is parsed exactly when the input is valid. -/
theorem parse_reconstructOriginalMessage (p : Pydantic) (input : DocumentIngestionInput) :
    DocumentUploadMessage.parse p input.reconstructOriginalMessage =
      if input.valid then some input.uploadMessage else none := by
  have hfields := required_reconstructOriginalMessage input
  have habsent := absent_reconstructOriginalMessage input
  unfold DocumentUploadMessage.parse
  simp only [hfields, habsent, p.toInt_int, Option.bind_eq_bind, Option.bind_some, Option.bind_none,
    withinLength, Option.all_none, guard_true, Option.pure_def]
  -- two checks are left: the size and the backend
  by_cases hsize : 0 < input.sizeBytes
  · by_cases hbackend : input.storageBackend ∈ storageBackends
    · simp [DocumentIngestionInput.valid, DocumentIngestionInput.uploadMessage, guard, hsize,
        hbackend]
    · simp [DocumentIngestionInput.valid, guard, hbackend]
  · simp [DocumentIngestionInput.valid, guard, hsize]

/-! ## The round trip -/

namespace DocumentIngestionInput

/-- The inputs agree on every field but the time of the event and the pack of the workspace. -/
def Agrees (a b : DocumentIngestionInput) : Prop :=
  { a with
    timestamp := b.timestamp
    verticalPack := b.verticalPack } = b

instance (a b : DocumentIngestionInput) : Decidable (a.Agrees b) :=
  inferInstanceAs (Decidable (_ = _))

/-- The trigger, fed with the message that a failed run of the input records, starts a run
    whose input agrees with it. -/
def RoundTrips (c : TriggerConfig) (input : DocumentIngestionInput) (workflowRunId : RunId)
    (errorMessage : String) : Prop :=
  ∀ s : RetryState, (∀ run ∈ s.runs, run.isOpen = false) →
    ∃ run : StartedRun, run.input.Agrees input ∧
      (triggerWorkflowAsync c {} (input.deadLetter workflowRunId errorMessage).originalMessage
        s).1.runs = s.runs ++ [run]

/-- The message carries all that the trigger needs: what it lacks has the value that the trigger
    puts in its place. -/
structure Replayable (c : TriggerConfig) (input : DocumentIngestionInput) : Prop where
  size : 0 < input.sizeBytes
  backend : input.storageBackend ∈ storageBackends
  owner : c.uploads.resolveTenantUserId input.workspaceId input.userId = input.userId
  uploadedBy : input.uploadedBy = some input.userId
  sourceUrl : input.sourceUrl = none
  chunkingStrategy : input.chunkingStrategy = none
  maxChunkSize : input.maxChunkSize = none
  chunkOverlap : input.chunkOverlap = none

/-- What the trigger does with the message when nothing fails and no run is open. -/
private theorem trigger_reconstructOriginalMessage {c : TriggerConfig}
    {input : DocumentIngestionInput} {s : RetryState} (hopen : ∀ run ∈ s.runs, run.isOpen = false) :
    (triggerWorkflowAsync c {} input.reconstructOriginalMessage s).1.runs =
      s.runs ++ if input.valid then
          [{  workflowId := ingestWorkflowId input.documentId
              input := c.uploads.workflowInput input.uploadMessage }]
        else [] := by
  unfold triggerWorkflowAsync
  simp only [parse_reconstructOriginalMessage]
  by_cases hvalid : input.valid = true
  · simp only [hvalid, if_true]
    -- no run is open, so Temporal starts one
    have hnone : (s.runs.any fun run => run.workflowId = ingestWorkflowId
        (c.uploads.workflowInput input.uploadMessage).documentId && run.isOpen) = false := by
      rw [List.any_eq_false]
      intro run hrun
      simp [hopen run hrun]
    simp only [startWorkflow, hnone, Bool.false_eq_true, if_false]
    rfl
  · -- a message that is not parsed starts none
    simp only [hvalid, Bool.false_eq_true, if_false, List.append_nil]
    unfold deadLetterPoison
    split
    · split <;> rfl
    · rfl

/-- The input that the trigger builds. -/
private theorem agrees_workflowInput_iff {c : TriggerConfig} {input : DocumentIngestionInput} :
    (c.uploads.workflowInput input.uploadMessage).Agrees input ↔
      c.uploads.resolveTenantUserId input.workspaceId input.userId = input.userId ∧
        input.uploadedBy = some input.userId ∧ input.sourceUrl = none ∧
        input.chunkingStrategy = none ∧ input.maxChunkSize = none ∧ input.chunkOverlap = none := by
  cases input
  -- the fields that the message holds come back as they were
  simp only [Agrees, UploadConfig.workflowInput, uploadMessage, orDefault,
    DocumentIngestionInput.mk.injEq, true_and, and_true]
  constructor
  · rintro ⟨howner, hby, hlink, hstrategy, hsize, hoverlap⟩
    exact ⟨howner, hby.symm, hlink.symm, hstrategy.symm, hsize.symm, hoverlap.symm⟩
  · rintro ⟨howner, hby, hlink, hstrategy, hsize, hoverlap⟩
    exact ⟨howner, hby.symm, hlink.symm, hstrategy.symm, hsize.symm, hoverlap.symm⟩

/-- The round trip loses nothing exactly when the fields that the message lacks had their
    defaults. -/
theorem roundTrips_iff (c : TriggerConfig) (input : DocumentIngestionInput)
    (workflowRunId : RunId) (errorMessage : String) :
    input.RoundTrips c workflowRunId errorMessage ↔ input.Replayable c := by
  have hmessage : (input.deadLetter workflowRunId errorMessage).originalMessage =
      input.reconstructOriginalMessage := rfl
  constructor
  · intro h
    -- one state is enough: the trigger, before any other run
    obtain ⟨run, hagrees, hruns⟩ := h { jobs := {} } (fun _ hrun => absurd hrun List.not_mem_nil)
    rw [hmessage, trigger_reconstructOriginalMessage
      (fun _ hrun => absurd hrun List.not_mem_nil)] at hruns
    by_cases hvalid : input.valid = true
    · rw [if_pos hvalid] at hruns
      obtain rfl := List.singleton_inj.mp hruns
      obtain ⟨hsize, hbackend⟩ := of_decide_eq_true hvalid
      obtain ⟨howner, hby, hlink, hstrategy, hmax, hoverlap⟩ := agrees_workflowInput_iff.mp hagrees
      exact ⟨hsize, hbackend, howner, hby, hlink, hstrategy, hmax, hoverlap⟩
    · rw [if_neg hvalid] at hruns
      cases hruns
  · intro h s hopen
    have hvalid : input.valid = true := decide_eq_true ⟨h.size, h.backend⟩
    have hagrees := agrees_workflowInput_iff.mpr ⟨h.owner, h.uploadedBy, h.sourceUrl,
      h.chunkingStrategy, h.maxChunkSize, h.chunkOverlap⟩
    have hruns : (triggerWorkflowAsync c {} input.reconstructOriginalMessage s).1.runs = _ :=
      trigger_reconstructOriginalMessage hopen
    rw [if_pos hvalid] at hruns
    exact ⟨_, hagrees, hmessage ▸ hruns⟩

end DocumentIngestionInput

/-- A trigger whose owner lookup is disabled. -/
def sampleTrigger : TriggerConfig where
  uploads := {
    resolveTenantUserId := fun _ userId => userId
    extract := fun _ => ⟨⟨[], by simp⟩, 0⟩ }
  pydantic := {
    toInt := fun
      | .int n => some n
      | _ => none
    toInt_int := fun _ => rfl }

/-- A file that a member uploaded into the tenant of the workspace's owner. -/
def memberUpload : DocumentIngestionInput where
  documentId := "doc"
  workspaceId := "ws"
  userId := "owner"
  filename := "a.txt"
  originalFilename := "a.txt"
  contentType := "text/plain"
  sizeBytes := 1
  storageBackend := "s3"
  storagePath := "ws/key/a.txt"
  uploadedBy := some "member"

/-- The retry attributes the member's file to the owner. -/
theorem not_roundTrips_memberUpload :
    ¬ memberUpload.RoundTrips sampleTrigger "run" "Weaviate storage failed: None" := by
  intro h
  obtain ⟨run, hagrees, hruns⟩ := h { jobs := {} } (fun _ hrun => absurd hrun List.not_mem_nil)
  have hruns' : (triggerWorkflowAsync sampleTrigger {}
      (memberUpload.deadLetter "run" "Weaviate storage failed: None").originalMessage
      { jobs := {} }).1.runs =
        [{  workflowId := "ingest-doc"
            input := { memberUpload with uploadedBy := some "owner" } }] := by decide
  obtain rfl := List.singleton_inj.mp (hruns'.symm.trans hruns)
  exact absurd hagrees (by decide)

/-! ## The other payloads -/

/-- The payload of a failed flush is no upload message. -/
theorem parse_payload (p : Pydantic) (job : DeadLetterJob) :
    DocumentUploadMessage.parse p job.payload = none := by
  -- the payload has no event type
  have hevent : Message.required job.payload "event_type" = none := by
    unfold DeadLetterJob.payload
    cases job.redactedTurns <;> rfl
  unfold DocumentUploadMessage.parse
  rw [hevent]
  rfl

/-- What the trigger records of a poison message is that message. -/
theorem originalMessage_poisonDeadLetter {p : Pydantic} {message : Message}
    {call : AddDeadLetterCall} (h : poisonDeadLetter p message = some call) :
    call.originalMessage = message := by
  simp only [poisonDeadLetter, Option.bind_eq_bind, Option.pure_def, Option.bind_eq_some_iff] at h
  obtain ⟨documentId, -, workspaceId, -, userId, -, h⟩ := h
  obtain rfl := Option.some.inj h
  rfl

end Inherent
