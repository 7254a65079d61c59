import Inherent.Native.DocumentRefresh
import Inherent.Spec.DeadLetterRoundTrip

/-!
# The refresh round trip

A refreshed document is ingested from a message that is rebuilt from its row.  The row is
written by several hands before: by `create_pending_document`, which knows no source link, by
an earlier ingest, whose columns no later one updates, or by `store_processed_document`, which
is not given the bucket.  The round trip holds exactly when what these leave out was not there.
-/

namespace Inherent

/-- The message that both surfaces publish. -/
theorem refreshStaleSourceMessage_eq (f : UploadFields) (nowIso : String) :
    f.refreshStaleSourceMessage nowIso = f.refreshDocumentMessage nowIso := rfl

/-- What the parser makes of it. -/
def UploadFields.uploadMessage (f : UploadFields) (nowIso : String) : DocumentUploadMessage where
  documentId := f.documentId
  workspaceId := f.workspaceId
  userId := f.userId
  uploadedBy := f.uploadedBy
  filename := f.filename
  originalFilename := f.originalFilename
  contentType := f.contentType
  sizeBytes := f.sizeBytes
  storageBackend := f.storageBackend
  storagePath := f.storagePath
  storageBucket := f.storageBucket
  storageUrl := f.storageUrl
  timestamp := nowIso

/-- The fields pass the checks of `DocumentUploadMessage`. -/
def UploadFields.Valid (f : UploadFields) : Prop :=
  0 < f.sizeBytes ∧ f.storageBackend ∈ storageBackends ∧
    withinLength maxLabelLength f.uploadedBy = true

instance (f : UploadFields) : Decidable f.Valid := inferInstanceAs (Decidable (_ ∧ _ ∧ _))

/-- The fields that a rebuilt message holds. -/
private theorem required_refreshDocumentMessage (f : UploadFields) (nowIso : String) :
    let message := f.refreshDocumentMessage nowIso
    message.required "event_type" = some "document.uploaded" ∧
      message.required "document_id" = some f.documentId ∧
      message.required "workspace_id" = some f.workspaceId ∧
      message.required "user_id" = some f.userId ∧
      message.optional "uploaded_by" = f.uploadedBy ∧
      message.required "filename" = some f.filename ∧
      message.required "original_filename" = some f.originalFilename ∧
      message.required "content_type" = some f.contentType ∧
      message.lookup "size_bytes" = some (.int f.sizeBytes) ∧
      message.required "storage_backend" = some f.storageBackend ∧
      message.required "storage_path" = some f.storagePath ∧
      message.optional "storage_bucket" = f.storageBucket ∧
      message.optional "storage_url" = f.storageUrl ∧
      message.required "timestamp" = some nowIso ∧
      message.lookup "contract_version" = some (.str "1.0.0") :=
  ⟨rfl, rfl, rfl, rfl, unwrapAvroUnion_ofOption _, rfl, rfl, rfl, rfl, rfl, rfl,
    unwrapAvroUnion_ofOption _, unwrapAvroUnion_ofOption _, rfl, rfl⟩

/-- The fields that it lacks. -/
private theorem absent_refreshDocumentMessage (f : UploadFields) (nowIso : String) :
    let message := f.refreshDocumentMessage nowIso
    message.optional "source" = none ∧ message.optional "connection_id" = none ∧
      message.optional "sync_id" = none ∧ message.lookup "source_url" = none :=
  ⟨rfl, rfl, rfl, rfl⟩

/-- A rebuilt message is parsed exactly when the fields are valid. -/
theorem parse_refreshDocumentMessage (p : Pydantic) (f : UploadFields) (nowIso : String) :
    DocumentUploadMessage.parse p (f.refreshDocumentMessage nowIso) =
      if f.Valid then some (f.uploadMessage nowIso) else none := by
  have hfields := required_refreshDocumentMessage f nowIso
  have habsent := absent_refreshDocumentMessage f nowIso
  unfold DocumentUploadMessage.parse
  simp only [hfields, habsent, p.toInt_int, Option.bind_eq_bind, Option.bind_some, Option.bind_none,
    withinLength, Option.all_none, Option.all_some, JsonValue.toStr, Option.isSome_some, guard_true,
    Option.pure_def]
  -- three checks are left: the uploader, the size and the backend
  by_cases hsize : 0 < f.sizeBytes
  · by_cases hbackend : f.storageBackend ∈ storageBackends
    · by_cases hby : (f.uploadedBy.all fun s => s.length ≤ maxLabelLength) = true
      · simp [UploadFields.Valid, UploadFields.uploadMessage, withinLength, guard, hsize, hbackend,
          hby]
      · simp [UploadFields.Valid, withinLength, guard, hby]
    · simp [UploadFields.Valid, guard, hbackend]
  · simp [UploadFields.Valid, guard, hsize]

/-- What is known of a message that was parsed. -/
theorem valid_of_parse {p : Pydantic} {message : Message} {m : DocumentUploadMessage}
    (h : DocumentUploadMessage.parse p message = some m) :
    0 < m.sizeBytes ∧ m.storageBackend ∈ storageBackends := by
  unfold DocumentUploadMessage.parse at h
  -- the steps before the size
  iterate 9 obtain ⟨_, -, h⟩ := Option.bind_eq_some_iff.mp h
  obtain ⟨size, -, h⟩ := Option.bind_eq_some_iff.mp h
  obtain ⟨_, hsize, h⟩ := Option.bind_eq_some_iff.mp h
  obtain ⟨_, -, h⟩ := Option.bind_eq_some_iff.mp h
  obtain ⟨_, hbackend, h⟩ := Option.bind_eq_some_iff.mp h
  -- and those behind the backend
  iterate 6 obtain ⟨_, -, h⟩ := Option.bind_eq_some_iff.mp h
  obtain rfl := Option.some.inj h
  rw [Option.guard_eq_some'] at hsize hbackend
  exact ⟨Int.pos_iff_toNat_pos.mp hsize, hbackend⟩

/-! ## From a row to the input of the refreshed run -/

variable (l : OwnerLookup) (extract : DocumentIngestionInput → ExtractedDocument)
  (workspaceVerticalPacks : String → Option String)

/-- The message that is rebuilt from the row makes the trigger build the input of the message,
    at the time of the refresh. -/
def Rebuilds (c : UploadConfig) (p : Pydantic) (m : DocumentUploadMessage) (f : UploadFields)
    (nowIso : String) : Prop :=
  ∃ m', DocumentUploadMessage.parse p (f.refreshDocumentMessage nowIso) = some m' ∧
    c.workflowInput m' = { c.workflowInput m with timestamp := nowIso }

/-- The row has what the trigger took from the message. -/
structure HoldsUpload (m : DocumentUploadMessage) (f : UploadFields) : Prop where
  documentId : f.documentId = m.documentId
  workspaceId : f.workspaceId = m.workspaceId
  tenant : l.resolveTenantUserId m.workspaceId f.userId =
    l.resolveTenantUserId m.workspaceId m.userId
  uploader : orDefault f.uploadedBy f.userId = orDefault m.uploadedBy m.userId
  filename : f.filename = m.filename
  originalFilename : f.originalFilename = m.originalFilename
  contentType : f.contentType = m.contentType
  sizeBytes : f.sizeBytes = m.sizeBytes
  storageBackend : f.storageBackend = m.storageBackend
  storagePath : f.storagePath = m.storagePath
  storageBucket : f.storageBucket = m.storageBucket
  storageUrl : f.storageUrl = m.storageUrl

variable {l extract workspaceVerticalPacks}

/-- The rebuilt message carries the input when the row holds it and there was no source link. -/
theorem rebuilds_iff {p : Pydantic} {message : Message} {m : DocumentUploadMessage}
    (hparse : DocumentUploadMessage.parse p message = some m) {f : UploadFields}
    {nowIso : String} :
    Rebuilds (l.uploads extract workspaceVerticalPacks) p m f nowIso ↔
      HoldsUpload l m f ∧ withinLength maxLabelLength f.uploadedBy = true ∧
        m.sourceUrl = none := by
  obtain ⟨hsize, hbackend⟩ := valid_of_parse hparse
  rw [Rebuilds, parse_refreshDocumentMessage]
  constructor
  · rintro ⟨m', hm', hinput⟩
    split at hm'
    · next hvalid =>
      obtain rfl := Option.some.inj hm'
      simp only [UploadConfig.workflowInput, UploadFields.uploadMessage, OwnerLookup.uploads,
        DocumentIngestionInput.mk.injEq, Option.some.injEq, true_and] at hinput
      obtain ⟨hdoc, hws, htenant, hname, horiginal, htype, hbytes, hstore, hpath, hbucket, hurl,
        hby, hlink, -⟩ := hinput
      exact ⟨⟨hdoc, hws, hws ▸ htenant, hby, hname, horiginal, htype, hbytes, hstore, hpath,
        hbucket, hurl⟩, hvalid.2.2, hlink.symm⟩
    · cases hm'
  · rintro ⟨h, hby, hlink⟩
    have hvalid : f.Valid := ⟨h.sizeBytes ▸ hsize, h.storageBackend ▸ hbackend, hby⟩
    refine ⟨f.uploadMessage nowIso, if_pos hvalid, ?_⟩
    simp only [UploadConfig.workflowInput, UploadFields.uploadMessage, OwnerLookup.uploads,
      DocumentIngestionInput.mk.injEq, Option.some.injEq, true_and]
    exact ⟨h.documentId, h.workspaceId, h.workspaceId ▸ h.tenant, h.filename, h.originalFilename,
      h.contentType, h.sizeBytes, h.storageBackend, h.storagePath, h.storageBucket, h.storageUrl,
      h.uploader, hlink.symm, congrArg workspaceVerticalPacks h.workspaceId⟩

/-! ## The row that a run leaves -/

/-- The fields of a row that the run itself inserts: by `create_pending_document` when it
    commits, else by `store_processed_document`. -/
def CompletedRun.insertedFields (r : CompletedRun) (c : UploadConfig) (m : DocumentUploadMessage) :
    UploadFields where
  documentId := m.documentId
  workspaceId := m.workspaceId
  userId := c.resolveTenantUserId m.workspaceId m.userId
  uploadedBy := some (orDefault m.uploadedBy m.userId)
  filename := m.filename
  originalFilename := m.originalFilename
  contentType := m.contentType
  sizeBytes := m.sizeBytes
  storageBackend := m.storageBackend
  storagePath := m.storagePath
  storageBucket := if r.claimedAt.isSome then m.storageBucket else none
  storageUrl := if r.claimedAt.isSome then m.storageUrl else none

/-- The claim changes no field of an upload. -/
theorem uploadFields_claim (c : PendingCall) (row : ProcessedDocument) :
    (c.claim row).uploadFields = row.uploadFields ∧ (c.claim row).metadata = row.metadata := by
  unfold PendingCall.claim
  split <;> exact ⟨rfl, rfl⟩

/-- An update of a replacing store without metadata writes the size only. -/
theorem uploadFields_updateSet {c : StoreCall} (happend : c.append = false)
    (hmetadata : c.metadata = none) (row : ProcessedDocument) :
    (c.updateSet row).uploadFields =
        { row.uploadFields with sizeBytes := c.message.sizeBytes } ∧
      (c.updateSet row).metadata = row.metadata := by
  simp only [StoreCall.updateSet, ProcessedDocument.uploadFields, happend, hmetadata,
    Bool.false_eq_true, if_false, Option.none_or, and_self]

/-- The fields of the row after a run that completes: of a row that was there before it writes
    the size only. -/
def CompletedRun.storedFields (r : CompletedRun) (c : UploadConfig) (m : DocumentUploadMessage) :
    Option Document → UploadFields
  | none => r.insertedFields c m
  | some d => { d.row.uploadFields with sizeBytes := m.sizeBytes }

/-- The row after a store that is not fenced out. -/
def StoreCall.storedRow (c : StoreCall) : Option Document → ProcessedDocument
  | none => c.insertValues
  | some d => c.updateSet d.row

/-- A store that succeeds leaves this row. -/
theorem row_of_storeInPostgresql {input : StoreDocumentInput} {now : Timestamp}
    {staged : List StagedChunk} {doc : Option Document} {d : Document}
    {output : StoreDocumentOutput} (happend : input.append = false)
    (h : storeInPostgresql input now staged doc = (some d, output))
    (hsuccess : output.success = true) :
    d.row = (input.storeCall now staged).storedRow doc := by
  have happend' : (input.storeCall now staged).append = false := happend
  have hrow : ∀ (inserted : Bool) (d₀ : Document),
      ((input.storeCall now staged).writeChunks inserted d₀).row = d₀.row := by
    intro inserted d₀
    simp only [StoreCall.writeChunks, happend', Bool.false_eq_true, false_and, if_false]
  unfold storeInPostgresql at h
  cases doc with
  | none =>
    simp only [storeProcessedDocument, Prod.mk.injEq, Option.some.injEq] at h
    exact h.1 ▸ hrow true _
  | some d₀ =>
    simp only [storeProcessedDocument] at h
    by_cases hpermits : d₀.row.permits (input.storeCall now staged).workflowRunId
    · simp only [if_pos hpermits, Prod.mk.injEq, Option.some.injEq] at h
      exact h.1 ▸ hrow false _
    · simp only [if_neg hpermits, Prod.mk.injEq] at h
      exact absurd (h.2 ▸ hsuccess) (by decide)

theorem finish_row {r : CompletedRun} {c : UploadConfig} {m : DocumentUploadMessage}
    {prior : Option Document} {d : Document} {output : StoreDocumentOutput}
    (h : r.finish c m prior = (some d, output)) (hsuccess : output.success = true) :
    d.row.metadata = prior.bind (fun d₀ => d₀.row.metadata) ∧
      d.row.uploadFields = r.storedFields c m prior := by
  have hrow := row_of_storeInPostgresql rfl h hsuccess
  rw [hrow]
  cases prior with
  | none =>
    cases hclaimed : r.claimedAt with
    | none =>
      simp only [CompletedRun.storedFields, CompletedRun.insertedFields, hclaimed]
      exact ⟨rfl, rfl⟩
    | some now =>
      simp only [CompletedRun.storedFields, CompletedRun.insertedFields, hclaimed,
        createPendingDocument, StoreCall.storedRow]
      -- the inserted row, behind its claim
      refine ⟨(uploadFields_updateSet rfl rfl _).2.trans (uploadFields_claim _ _).2, ?_⟩
      rw [(uploadFields_updateSet rfl rfl _).1, (uploadFields_claim _ _).1]
      rfl
  | some d₀ =>
    cases hclaimed : r.claimedAt with
    | none => exact ⟨rfl, rfl⟩
    | some now =>
      simp only [createPendingDocument, StoreCall.storedRow]
      refine ⟨(uploadFields_updateSet rfl rfl _).2.trans (uploadFields_claim _ _).2, ?_⟩
      rw [(uploadFields_updateSet rfl rfl _).1, (uploadFields_claim _ _).1]
      rfl

/-! ## The round trip -/

/-- The tenant of a document is resolved to itself. -/
theorem resolveTenantUserId_idem (l : OwnerLookup) (workspaceId userId : String) :
    l.resolveTenantUserId workspaceId (l.resolveTenantUserId workspaceId userId) =
      l.resolveTenantUserId workspaceId userId := by
  unfold OwnerLookup.resolveTenantUserId
  split
  · cases l.owner workspaceId <;> rfl
  · rfl

/-- A value goes before its default unless it is empty. -/
theorem orDefault_some_eq_self_iff {value default : String} :
    orDefault (some value) default = value ↔ (value = "" → default = "") := by
  by_cases hempty : value = ""
  · simp only [orDefault, hempty, if_true, forall_const]
  · simp only [orDefault, hempty, if_false, false_imp_iff]

/-- A row that the run inserts holds the upload up to what its writer is not given. -/
theorem holdsUpload_insertedFields_iff {r : CompletedRun} {m : DocumentUploadMessage} :
    HoldsUpload l m (r.insertedFields (l.uploads extract workspaceVerticalPacks) m) ↔
      (r.claimedAt = none → m.storageBucket = none ∧ m.storageUrl = none) ∧
        (orDefault m.uploadedBy m.userId = "" →
          l.resolveTenantUserId m.workspaceId m.userId = "") := by
  constructor
  · intro h
    refine ⟨fun hclaimed => ?_, orDefault_some_eq_self_iff.mp h.uploader⟩
    have hbucket := h.storageBucket
    have hurl := h.storageUrl
    simp only [CompletedRun.insertedFields, hclaimed, Option.isSome_none, Bool.false_eq_true,
      if_false] at hbucket hurl
    exact ⟨hbucket.symm, hurl.symm⟩
  · rintro ⟨hplace, hby⟩
    have hplace' : (if r.claimedAt.isSome then m.storageBucket else none) = m.storageBucket ∧
        (if r.claimedAt.isSome then m.storageUrl else none) = m.storageUrl := by
      cases hclaimed : r.claimedAt with
      | none => exact ⟨(hplace hclaimed).1.symm, (hplace hclaimed).2.symm⟩
      | some now => exact ⟨rfl, rfl⟩
    exact ⟨rfl, rfl, resolveTenantUserId_idem l _ _, orDefault_some_eq_self_iff.mpr hby, rfl, rfl,
      rfl, rfl, rfl, rfl, hplace'.1, hplace'.2⟩

/-- A refresh of the document makes the trigger build the input of the message again, keeps the
    columns that its message lacks, and is the same from both surfaces. -/
structure RefreshRoundTrips (c : UploadConfig) (p : Pydantic) (m : DocumentUploadMessage)
    (d : Document) : Prop where
  rebuilds : ∀ now nowIso, ∃ d' message m',
    refreshDocument d.row.workspaceId now nowIso (some d) = some (d', message) ∧
      DocumentUploadMessage.parse p message = some m' ∧
      c.workflowInput m' = { c.workflowInput m with timestamp := nowIso }
  keeps : ∀ now nowIso d' message,
    refreshDocument d.row.workspaceId now nowIso (some d) = some (d', message) →
      d'.row.metadata = d.row.metadata ∧ d'.row.sourceUrl = d.row.sourceUrl ∧
        d'.row.contentHash = d.row.contentHash
  surfaces : ∀ now nowIso,
    handleRefreshStaleSource d.row.workspaceId now nowIso (some d) =
      refreshDocument d.row.workspaceId now nowIso (some d)

/-- What the message and the row before its run must be for a refresh to carry them.  A row
    that the run inserts lacks the source link, and the place of the file when it is not
    claimed; a row of before has its own columns. -/
def Carried (l : OwnerLookup) (m : DocumentUploadMessage) (r : CompletedRun) :
    Option Document → Prop
  | none =>
    m.sourceUrl = none ∧ (r.claimedAt = none → m.storageBucket = none ∧ m.storageUrl = none) ∧
      (orDefault m.uploadedBy m.userId = "" →
        l.resolveTenantUserId m.workspaceId m.userId = "") ∧
      withinLength maxLabelLength (some (orDefault m.uploadedBy m.userId)) = true
  | some d =>
    m.sourceUrl = none ∧ d.row.metadata = none ∧
      withinLength maxLabelLength d.row.uploadedBy = true ∧
      HoldsUpload l m { d.row.uploadFields with sizeBytes := m.sizeBytes }

/-- What a refresh of a document does. -/
theorem refreshDocument_eq (d : Document) (now : Timestamp) (nowIso : String) :
    refreshDocument d.row.workspaceId now nowIso (some d) =
      some (createOrResetPendingDocument (d.row.uploadFields.resetCall now) (some d),
        d.row.uploadFields.refreshDocumentMessage nowIso) := by
  simp only [refreshDocument, refresh, getDocumentUploadFields, Option.bind_eq_bind,
    Option.bind_some, if_true]

/-- The reset keeps the source link and the digest; the metadata it wipes. -/
theorem row_createOrReset (d : Document) (now : Timestamp) :
    (createOrResetPendingDocument (d.row.uploadFields.resetCall now) (some d)).row.metadata =
        none ∧
      (createOrResetPendingDocument (d.row.uploadFields.resetCall now) (some d)).row.sourceUrl =
        d.row.sourceUrl ∧
      (createOrResetPendingDocument (d.row.uploadFields.resetCall now) (some d)).row.contentHash =
        d.row.contentHash :=
  ⟨rfl, rfl, Option.none_or⟩

/-- The round trip, by its parts. -/
theorem refreshRoundTrips_iff_rebuilds {c : UploadConfig} {p : Pydantic}
    {m : DocumentUploadMessage} {d : Document} :
    RefreshRoundTrips c p m d ↔
      (∀ nowIso, Rebuilds c p m d.row.uploadFields nowIso) ∧ d.row.metadata = none := by
  constructor
  · intro h
    constructor
    · intro nowIso
      obtain ⟨d', message, m', hrefresh, hparse, hinput⟩ := h.rebuilds 0 nowIso
      rw [refreshDocument_eq, Option.some.injEq, Prod.mk.injEq] at hrefresh
      exact ⟨m', hrefresh.2 ▸ hparse, hinput⟩
    · exact (h.keeps 0 "" _ _ (refreshDocument_eq d 0 "")).1.symm
  · rintro ⟨hrebuilds, hmetadata⟩
    refine ⟨fun now nowIso => ?_, fun now nowIso d' message hrefresh => ?_, fun _ _ => rfl⟩
    · obtain ⟨m', hparse, hinput⟩ := hrebuilds nowIso
      exact ⟨_, _, m', refreshDocument_eq d now nowIso, hparse, hinput⟩
    · rw [refreshDocument_eq, Option.some.injEq, Prod.mk.injEq] at hrefresh
      obtain ⟨hwiped, hlink, hhash⟩ := row_createOrReset d now
      exact hrefresh.1 ▸ ⟨hwiped.trans hmetadata.symm, hlink, hhash⟩

/-- The refresh of a document whose run has completed carries the message on exactly when the
    message had no source link and the row has all the rest of it, and no metadata. -/
theorem refreshRoundTrips_iff {p : Pydantic} {message : Message} {m : DocumentUploadMessage}
    (hparse : DocumentUploadMessage.parse p message = some m) {r : CompletedRun}
    {prior : Option Document} {d : Document} {output : StoreDocumentOutput}
    (hrun : r.finish (l.uploads extract workspaceVerticalPacks) m prior = (some d, output))
    (hsuccess : output.success = true) :
    RefreshRoundTrips (l.uploads extract workspaceVerticalPacks) p m d ↔ Carried l m r prior := by
  obtain ⟨hmetadata, hfields⟩ := finish_row hrun hsuccess
  have hrebuilds : (∀ nowIso,
      Rebuilds (l.uploads extract workspaceVerticalPacks) p m d.row.uploadFields nowIso) ↔
        HoldsUpload l m d.row.uploadFields ∧
          withinLength maxLabelLength d.row.uploadFields.uploadedBy = true ∧
            m.sourceUrl = none :=
    ⟨fun h => (rebuilds_iff hparse).mp (h ""), fun h _ => (rebuilds_iff hparse).mpr h⟩
  rw [refreshRoundTrips_iff_rebuilds, hrebuilds, hfields, hmetadata]
  cases prior with
  | none =>
    simp only [CompletedRun.storedFields, holdsUpload_insertedFields_iff, Carried,
      Option.bind_none, and_true]
    constructor
    · rintro ⟨⟨hplace, hby⟩, hlabel, hlink⟩
      exact ⟨hlink, hplace, hby, hlabel⟩
    · rintro ⟨hlink, hplace, hby, hlabel⟩
      exact ⟨⟨hplace, hby⟩, hlabel, hlink⟩
  | some d₀ =>
    simp only [CompletedRun.storedFields, Carried, Option.bind_some]
    constructor
    · rintro ⟨⟨hholds, hlabel, hlink⟩, hnone⟩
      exact ⟨hlink, hnone, hlabel, hholds⟩
    · rintro ⟨hlink, hnone, hlabel, hholds⟩
      exact ⟨⟨hholds, hlabel, hlink⟩, hnone⟩

/-! ### Documents that are refreshed -/

/-- A deployment without a control plane. -/
def standalone : UploadConfig :=
  OwnerLookup.uploads ⟨false, fun _ => none⟩ (fun _ => ⟨⟨[], List.nodup_nil⟩, 0⟩) fun _ => none

/-- A file in the workspace's storage, at the path, with a source link or without one. -/
def linkedUpload (storagePath : String) (sourceUrl : Option String) : DocumentUploadMessage where
  documentId := "doc"
  workspaceId := "ws"
  userId := "user"
  filename := "a.txt"
  originalFilename := "a.txt"
  contentType := "text/plain"
  sizeBytes := 5
  storageBackend := "s3"
  storagePath := storagePath
  timestamp := "2026-01-01T00:00:00Z"
  sourceUrl := sourceUrl

/-- Its message. -/
def linkedMessage (storagePath : String) (sourceUrl : Option String) : Message :=
  [("event_type", .str "document.uploaded"), ("document_id", .str "doc"),
    ("workspace_id", .str "ws"), ("user_id", .str "user"), ("filename", .str "a.txt"),
    ("original_filename", .str "a.txt"), ("content_type", .str "text/plain"),
    ("size_bytes", .int 5), ("storage_backend", .str "s3"), ("storage_path", .str storagePath),
    ("timestamp", .str "2026-01-01T00:00:00Z"), ("source_url", .ofOption sourceUrl)]

/-- A run that claims its document. -/
def claimedRun (workflowRunId : RunId) (startTime : Timestamp) : CompletedRun where
  workflowRunId := workflowRunId
  startTime := startTime
  claimedAt := some (startTime + 1)
  storedAt := startTime + 2
  tenantId := none
  processingTimeMs := 0

/-- The row of a connector's file has no source link, so its refresh has none. -/
theorem not_refreshRoundTrips_sourceUrl :
    DocumentUploadMessage.parse sampleTrigger.pydantic
        (linkedMessage "ws/a.txt" (some "https://drive.example/view")) =
      some (linkedUpload "ws/a.txt" (some "https://drive.example/view")) ∧
    ∃ d output, (claimedRun "run" 1).finish standalone
        (linkedUpload "ws/a.txt" (some "https://drive.example/view")) none = (some d, output) ∧
      output.success = true ∧ ¬ RefreshRoundTrips standalone sampleTrigger.pydantic
        (linkedUpload "ws/a.txt" (some "https://drive.example/view")) d := by
  have hparse : DocumentUploadMessage.parse sampleTrigger.pydantic
      (linkedMessage "ws/a.txt" (some "https://drive.example/view")) =
        some (linkedUpload "ws/a.txt" (some "https://drive.example/view")) := rfl
  refine ⟨hparse, _, _, rfl, rfl, fun h => ?_⟩
  have hlink := ((rebuilds_iff hparse).mp ((refreshRoundTrips_iff_rebuilds.mp h).1 "")).2.2
  exact absurd hlink (by decide)

/-- A newer file of the document, of a producer that resets no row: the refresh fetches the
    older one. -/
theorem not_refreshRoundTrips_older :
    ∃ d₀ d output output',
      (claimedRun "run1" 1).finish standalone (linkedUpload "ws/old.txt" none) none =
        (some d₀, output') ∧
      (claimedRun "run2" 9).finish standalone (linkedUpload "ws/new.txt" none) (some d₀) =
        (some d, output) ∧
      output.success = true ∧ d.row.storagePath = "ws/old.txt" ∧
      ¬ RefreshRoundTrips standalone sampleTrigger.pydantic (linkedUpload "ws/new.txt" none) d := by
  have hparse : DocumentUploadMessage.parse sampleTrigger.pydantic
      (linkedMessage "ws/new.txt" none) = some (linkedUpload "ws/new.txt" none) := rfl
  refine ⟨_, _, _, _, rfl, rfl, rfl, rfl, fun h => ?_⟩
  have hpath := ((rebuilds_iff hparse).mp
    ((refreshRoundTrips_iff_rebuilds.mp h).1 "")).1.storagePath
  exact absurd hpath (by decide)

theorem refreshRoundTrips_iff_unlinked :
    ∃ d output, (claimedRun "run" 1).finish standalone (linkedUpload "ws/a.txt" none) none =
        (some d, output) ∧
      RefreshRoundTrips standalone sampleTrigger.pydantic (linkedUpload "ws/a.txt" none) d := by
  have hparse : DocumentUploadMessage.parse sampleTrigger.pydantic (linkedMessage "ws/a.txt" none) =
      some (linkedUpload "ws/a.txt" none) := rfl
  have hrun : (claimedRun "run" 1).finish standalone (linkedUpload "ws/a.txt" none) none =
      (some _, _) := rfl
  exact ⟨_, _, hrun, (refreshRoundTrips_iff hparse hrun rfl).mpr ⟨rfl, nofun, nofun, by decide⟩⟩

end Inherent
