import Inherent.ForStd.Run
import Inherent.Native.DocumentIntake

/-!
# What an accepted upload promises

The intake answers an upload of known bytes from the existing row, whatever its status but
`failed`.  That row need not have been queued: its message may never have been published, if
the process stopped after the row was written or every attempt to mark it failed was in vain,
and an ingestion run of an earlier message may have moved it out of `failed`.  As long as
neither happens, an upload that is accepted has its message published after the last change
of the row's `content_hash`.
-/

namespace Inherent

open EventRun

namespace IntakeSystem

/-- The message with the number `i` belongs to the document and was published after its
    `content_hash` last changed. -/
def PublishedAt (s : IntakeSystem) (documentId : String) (i : Nat) (m : PublishedMessage) : Prop :=
  s.hashChangedAt documentId ≤ i ∧ s.published[i]? = some m ∧ m.message.documentId = documentId

/-- Some message of the document was published after its `content_hash` last changed. -/
def Messaged (s : IntakeSystem) (documentId : String) : Prop :=
  ∃ i m, s.PublishedAt documentId i m

/-- A message for exactly these bytes was. -/
def Enqueued (s : IntakeSystem) (documentId : String) (bytes : List UInt8) : Prop :=
  ∃ i m, s.PublishedAt documentId i m ∧ m.bytes = some bytes

/-- The upload is not accepted silently: if it returns with a status other than `failed`, the
    message for its bytes is published. -/
def NeverSilent (c : IntakeConfig) (s : IntakeSystem) : IntakeEvent → Prop
  | .upload req ids f => ∀ r, (intakeDocument c req ids f s).2 = .response r →
      r.status ≠ .failed → (intakeDocument c req ids f s).1.Enqueued r.documentId req.contentBytes
  | .ingestion _ => True

end IntakeSystem

/-- Some attempt of `markLoop` that is made lands. -/
def markLands (marks : Nat → StepOutcome) : Nat → Nat → Bool
  | 0, _ => false
  | n + 1, k => (marks k).landed || match marks k with
    | .raised _ => markLands marks n (k + 1)
    | _ => false

/-- The call writes its row and then neither publishes its message nor marks the row failed. -/
def IntakeFaults.orphans (f : IntakeFaults) : Bool :=
  f.uploadFile = .ok && f.persist.landed &&
    match f.persist, f.publish with
    | .ok, .raised false => !markLands f.marks markFailedAttempts 0
    | .ok, publish => !publish.landed
    | _, _ => true

namespace IntakeSystem

/-- What keeps every row either queued or failed:
    * a call that writes its row publishes its message or marks the row failed;
    * an ingestion run moves no row out of `failed` whose message is not published. -/
def Compensated (c : IntakeConfig) (s : IntakeSystem) : IntakeEvent → Prop
  | .upload req ids f =>
    ∀ plan, admitIntake c req ids f s = .ok plan → f.ownerLookup = .ok → f.orphans = false
  | .ingestion w => ∀ d ∈ s.documents.find? w.documentId, d.row.contentHash ≠ none →
      d.row.status = .failed → ∀ d' ∈ w.apply (some d), d'.row.status ≠ .failed →
      s.Messaged w.documentId

end IntakeSystem

/-! ## The digest -/

private theorem charOfUInt8_injective :
    Function.Injective fun b : UInt8 => Char.ofNat b.toNat := by
  intro a b h
  have hvalid : ∀ x : UInt8, (Char.ofNat x.toNat).toNat = x.toNat := by
    intro x
    have hx := x.toNat_lt
    -- a byte is below the surrogates
    rw [Char.toNat_ofNat, if_pos (Or.inl (by omega))]
  have h' : (Char.ofNat a.toNat).toNat = (Char.ofNat b.toNat).toNat := congrArg Char.toNat h
  rw [hvalid, hvalid] at h'
  exact UInt8.toNat_inj.mp h'

/-- Bytes with the same digest are the same bytes. -/
theorem contentHash_injective : Function.Injective contentHash := by
  intro a b h
  have hchars := congrArg Sha256.preimage h
  simp only [contentHash] at hchars
  exact charOfUInt8_injective.list_map (String.ofList_injective hchars)

/-! ## The invariant -/

namespace IntakeSystem

/-- The row needs no message, is failed, or its message is published. -/
def Settled (s : IntakeSystem) (d : Document) : Prop :=
  d.row.contentHash = none ∨ d.row.status = .failed ∨ s.Messaged d.documentId

/-- The messages of a document since its `content_hash` last changed carry the bytes of that
    hash. -/
structure Tracked (s : IntakeSystem) : Prop where
  bound : ∀ documentId, s.hashChangedAt documentId ≤ s.published.length
  bytes : ∀ d ∈ s.documents.rows, ∀ h ∈ d.row.contentHash, ∀ i m,
    s.PublishedAt d.documentId i m → ∃ b, m.bytes = some b ∧ h = contentHash b

/-- Every row but that of the document `except` is settled. -/
def SettledBut (s : IntakeSystem) (except : Option String) : Prop :=
  ∀ d ∈ s.documents.rows, some d.documentId ≠ except → s.Settled d

/-- The invariant between two calls. -/
structure Accounted (s : IntakeSystem) : Prop where
  tracked : s.Tracked
  settled : s.SettledBut none

theorem accounted_start : ({} : IntakeSystem).Accounted :=
  ⟨⟨fun _ => Nat.zero_le _, fun d hd => absurd hd (by simp)⟩, fun d hd => absurd hd (by simp)⟩

/-! ### Writing a row -/

/-- A write that changes the hash starts a new count; any other leaves it. -/
private theorem hashChangedAt_write (s : IntakeSystem) (d : Document) :
    (s.write d).hashChangedAt =
      if (s.documents.find? d.documentId).map (fun d => d.row.contentHash) =
        some d.row.contentHash then s.hashChangedAt
      else Function.update s.hashChangedAt d.documentId s.published.length := rfl

/-- A write says nothing about another document. -/
private theorem publishedAt_write_of_ne {s : IntakeSystem} {d : Document} {documentId : String}
    (hne : documentId ≠ d.documentId) (i : Nat) (m : PublishedMessage) :
    (s.write d).PublishedAt documentId i m ↔ s.PublishedAt documentId i m := by
  have hsince : (s.write d).hashChangedAt documentId = s.hashChangedAt documentId := by
    rw [hashChangedAt_write]
    split
    · rfl
    · exact Function.update_of_ne hne _ _
  simp only [PublishedAt, hsince]
  rfl

/-- A write that keeps the hash leaves the count of its document. -/
private theorem publishedAt_write_of_hash {s : IntakeSystem} {d d₀ : Document}
    (hfind : s.documents.find? d.documentId = some d₀)
    (hhash : d₀.row.contentHash = d.row.contentHash) (i : Nat) (m : PublishedMessage) :
    (s.write d).PublishedAt d.documentId i m ↔ s.PublishedAt d.documentId i m := by
  have hsince : (s.write d).hashChangedAt = s.hashChangedAt := by
    rw [hashChangedAt_write, if_pos]
    rw [hfind, Option.map_some, hhash]
  simp only [PublishedAt, hsince]
  rfl

/-- After a write that changes the hash no message counts yet. -/
private theorem not_publishedAt_write {s : IntakeSystem} {d : Document}
    (hhash : (s.documents.find? d.documentId).map (fun d => d.row.contentHash) ≠
      some d.row.contentHash) (i : Nat) (m : PublishedMessage) :
    ¬ (s.write d).PublishedAt d.documentId i m := by
  rintro ⟨hle, hi, -⟩
  -- the count starts at the messages that are still to come
  rw [hashChangedAt_write, if_neg hhash, Function.update_self] at hle
  have hlt : i < s.published.length := (List.getElem?_eq_some_iff.mp hi).1
  omega

theorem Tracked.write {s : IntakeSystem} (h : s.Tracked) (d : Document) : (s.write d).Tracked where
  bound documentId := by
    rw [hashChangedAt_write]
    split
    · exact h.bound documentId
    · by_cases hd : documentId = d.documentId
      · rw [hd, Function.update_self]
        exact Nat.le_refl _
      · rw [Function.update_of_ne hd]
        exact h.bound documentId
  bytes d' hd' hash hhash i m hm := by
    rcases UniqueTable.mem_put.mp hd' with rfl | ⟨hmem, hne⟩
    · by_cases hsame : (s.documents.find? d'.documentId).map (fun d => d.row.contentHash) =
          some d'.row.contentHash
      · -- the hash is kept, so the messages that count are those of the row before
        obtain ⟨d₀, hfind, hd₀⟩ := Option.map_eq_some_iff.mp hsame
        obtain ⟨hd₀mem, hd₀key⟩ := UniqueTable.find?_eq_some.mp hfind
        rw [publishedAt_write_of_hash hfind hd₀] at hm
        exact h.bytes d₀ hd₀mem hash (hd₀ ▸ hhash) i m (hd₀key ▸ hm)
      · -- the hash is new, so no message counts yet
        exact absurd hm (not_publishedAt_write hsame i m)
    · exact h.bytes d' hmem hash hhash i m ((publishedAt_write_of_ne hne i m).mp hm)

/-- After a write the other documents are as settled as before. -/
theorem SettledBut.write {s : IntakeSystem} {except : Option String} (h : s.SettledBut except)
    {d : Document} (hexcept : except = none ∨ except = some d.documentId) :
    (s.write d).SettledBut (some d.documentId) := by
  intro d' hd' hne
  rw [ne_eq, Option.some.injEq] at hne
  rcases UniqueTable.mem_put.mp hd' with rfl | ⟨hmem, -⟩
  · exact absurd rfl hne
  · -- the row was settled before, whatever the exception was
    have hold : s.Settled d' := by
      apply h d' hmem
      rcases hexcept with rfl | rfl
      · exact Option.some_ne_none _
      · exact fun heq => hne (Option.some.inj heq)
    rcases hold with hnone | hfailed | ⟨i, m, hm⟩
    · exact Or.inl hnone
    · exact Or.inr (Or.inl hfailed)
    · exact Or.inr (Or.inr ⟨i, m, (publishedAt_write_of_ne hne i m).mpr hm⟩)

/-- Once the last document is settled too, all are. -/
theorem SettledBut.all {s : IntakeSystem} {documentId : String}
    (h : s.SettledBut (some documentId))
    (hd : ∀ d ∈ s.documents.rows, d.documentId = documentId → s.Settled d) :
    s.SettledBut none := by
  intro d hmem _
  by_cases hid : d.documentId = documentId
  · exact hd d hmem hid
  · exact h d hmem fun heq => hid (Option.some.inj heq)

/-- The only row of the document after a write is the one that was written. -/
private theorem eq_of_mem_write {s : IntakeSystem} {d d' : Document}
    (hd' : d' ∈ (s.write d).documents.rows) (hid : d'.documentId = d.documentId) : d' = d := by
  rcases UniqueTable.mem_put.mp hd' with rfl | ⟨-, hne⟩
  · rfl
  · exact absurd hid hne

/-! ### Publishing -/

/-- What was published before still counts. -/
private theorem publishedAt_publish {s : IntakeSystem} {message : DocumentUploadMessage}
    {documentId : String} {i : Nat} {m : PublishedMessage} (hm : s.PublishedAt documentId i m) :
    (s.publish message).PublishedAt documentId i m := by
  obtain ⟨hle, hi, hid⟩ := hm
  refine ⟨hle, ?_, hid⟩
  rw [IntakeSystem.publish, List.getElem?_append_left (List.getElem?_eq_some_iff.mp hi).1]
  exact hi

/-- The message itself counts for its document. -/
private theorem publishedAt_publish_self {s : IntakeSystem} (h : s.Tracked)
    (message : DocumentUploadMessage) :
    (s.publish message).PublishedAt message.documentId s.published.length
      ⟨message, s.objects message.storagePath⟩ :=
  ⟨h.bound _, by simp [IntakeSystem.publish], rfl⟩

/-- A message that counts was published before or is the one just published. -/
private theorem publishedAt_of_publish {s : IntakeSystem} {message : DocumentUploadMessage}
    {documentId : String} {i : Nat} {m : PublishedMessage}
    (hm : (s.publish message).PublishedAt documentId i m) :
    s.PublishedAt documentId i m ∨ documentId = message.documentId ∧
      m = ⟨message, s.objects message.storagePath⟩ := by
  obtain ⟨hle, hi, hid⟩ := hm
  rw [IntakeSystem.publish, List.getElem?_append] at hi
  split at hi
  · exact Or.inl ⟨hle, hi, hid⟩
  · -- only the new message is behind the old ones
    obtain rfl := List.mem_singleton.mp (List.mem_of_getElem? hi)
    exact Or.inr ⟨hid.symm, rfl⟩

/-- Publishing a message for the bytes of its row keeps the count right. -/
theorem Tracked.publish {s : IntakeSystem} (h : s.Tracked) {message : DocumentUploadMessage}
    {b : List UInt8} (hobj : s.objects message.storagePath = some b)
    (hrow : ∀ d ∈ s.documents.rows, d.documentId = message.documentId →
      d.row.contentHash = some (contentHash b)) : (s.publish message).Tracked where
  bound documentId := by
    have hlen : (s.publish message).published.length = s.published.length + 1 := by
      simp [IntakeSystem.publish]
    rw [hlen]
    exact Nat.le_succ_of_le (h.bound documentId)
  bytes d hd hash hhash i m hm := by
    rcases publishedAt_of_publish hm with hm | ⟨hid, rfl⟩
    · exact h.bytes d hd hash hhash i m hm
    · -- the bytes of the new message are those under its key, which its row has the hash of
      refine ⟨b, hobj, ?_⟩
      rw [hrow d hd hid, Option.mem_some_iff] at hhash
      exact hhash.symm

/-- What is settled stays so, and the document of the message is. -/
theorem SettledBut.publish {s : IntakeSystem} (h : s.Tracked) {message : DocumentUploadMessage}
    (hs : s.SettledBut (some message.documentId)) : (s.publish message).SettledBut none := by
  intro d hd _
  by_cases hid : d.documentId = message.documentId
  · exact Or.inr (Or.inr ⟨_, _, hid ▸ publishedAt_publish_self h message⟩)
  · rcases hs d hd (fun heq => hid (Option.some.inj heq)) with hnone | hfailed | ⟨i, m, hm⟩
    · exact Or.inl hnone
    · exact Or.inr (Or.inl hfailed)
    · exact Or.inr (Or.inr ⟨i, m, publishedAt_publish hm⟩)

/-! ### An upload past its row -/

theorem Accounted.putObject {s : IntakeSystem} (h : s.Accounted) (key : String)
    (bytes : List UInt8) : (s.putObject key bytes).Accounted :=
  ⟨⟨h.tracked.bound, h.tracked.bytes⟩, h.settled⟩

/-- The row of the upload is written and its bytes are stored; nothing else is open. -/
structure Recorded (u : DocumentUpload) (bytes : List UInt8) (s : IntakeSystem) : Prop where
  tracked : s.Tracked
  settled : s.SettledBut (some u.documentId)
  row : ∀ d ∈ s.documents.rows, d.documentId = u.documentId →
    d.row.workspaceId = u.workspaceId ∧ d.row.contentHash = some (contentHash bytes)
  object : s.objects u.s3Key = some bytes

/-- What `create_or_reset_pending_document` leaves. -/
private theorem createOrResetPendingDocument_row {c : ResetCall} {d : Option Document}
    {hash : Sha256} (hd : ∀ d' ∈ d, d'.documentId = c.documentId)
    (hhash : c.contentHash = some hash) :
    (createOrResetPendingDocument c d).documentId = c.documentId ∧
      (createOrResetPendingDocument c d).row.workspaceId = c.workspaceId ∧
      (createOrResetPendingDocument c d).row.contentHash = some hash := by
  cases d with
  | none => exact ⟨rfl, rfl, hhash⟩
  | some d =>
    refine ⟨hd d rfl, rfl, ?_⟩
    show c.contentHash.or d.row.contentHash = some hash
    rw [hhash, Option.some_or]

/-- Writing the row of the upload. -/
theorem Accounted.recorded {s : IntakeSystem} (h : s.Accounted) {u : DocumentUpload}
    {bytes : List UInt8} (hhash : u.contentHash = contentHash bytes) (now : Timestamp)
    (hobj : s.objects u.s3Key = some bytes) :
    Recorded u bytes (s.write (createOrResetPendingDocument (u.resetCall now)
      (s.documents.find? u.documentId))) := by
  have hfind : ∀ d ∈ s.documents.find? u.documentId, d.documentId = (u.resetCall now).documentId :=
    fun d hd => (UniqueTable.find?_eq_some.mp hd).2
  have hnew : (u.resetCall now).contentHash = some (contentHash bytes) := congrArg some hhash
  obtain ⟨hid, hws, hrow⟩ := createOrResetPendingDocument_row hfind hnew
  have hdoc : (u.resetCall now).documentId = u.documentId := rfl
  refine ⟨h.tracked.write _, ?_, ?_, hobj⟩
  · have hsettled := h.settled.write (d := createOrResetPendingDocument (u.resetCall now)
      (s.documents.find? u.documentId)) (Or.inl rfl)
    rwa [hid, hdoc] at hsettled
  · intro d hd hdid
    rw [eq_of_mem_write hd (hdid.trans (hid.trans hdoc).symm)]
    exact ⟨hws, hrow⟩

/-- Publishing the message of the upload settles everything. -/
theorem Recorded.publish {u : DocumentUpload} {bytes : List UInt8} {s : IntakeSystem}
    (h : Recorded u bytes s) (nowIso : String) : (s.publish (u.message nowIso)).Accounted where
  tracked := h.tracked.publish h.object fun d hd hid => (h.row d hd hid).2
  settled := SettledBut.publish h.tracked h.settled

/-- The message that is published is for the bytes of the upload. -/
theorem Recorded.enqueued {u : DocumentUpload} {bytes : List UInt8} {s : IntakeSystem}
    (h : Recorded u bytes s) (nowIso : String) :
    (s.publish (u.message nowIso)).Enqueued u.documentId bytes :=
  ⟨_, _, publishedAt_publish_self h.tracked (u.message nowIso), h.object⟩

/-- Marking the row of the upload failed settles everything, and leaves what was recorded. -/
private theorem Recorded.mark {u : DocumentUpload} {bytes : List UInt8} {s : IntakeSystem}
    (h : Recorded u bytes s) (error : String) (now : Timestamp) :
    Recorded u bytes (s.modify u.documentId (markDocumentFailed u.workspaceId error now)) ∧
      (s.modify u.documentId (markDocumentFailed u.workspaceId error now)).SettledBut none := by
  unfold modify
  cases hfind : s.documents.find? u.documentId with
  | none =>
    -- without a row nothing of the document is open
    refine ⟨h, h.settled.all fun d hd hid => ?_⟩
    exact absurd hid (UniqueTable.not_holds_iff.mp (UniqueTable.find?_eq_none.mp hfind) d hd)
  | some d =>
    obtain ⟨hmem, hid⟩ := UniqueTable.find?_eq_some.mp hfind
    obtain ⟨hws, hhash⟩ := h.row d hmem hid
    simp only [markDocumentFailed, if_pos hws]
    -- the row that is written keeps its id, its workspace and its hash
    have hkey : d.documentId = u.documentId := hid
    have hsettled := h.settled.write (d := { d with
      row := { d.row with
        status := .failed
        errorMessage := some error
        updatedAt := now } }) (Or.inr (congrArg some hkey.symm))
    refine ⟨⟨h.tracked.write _, ?_, ?_, h.object⟩, ?_⟩
    · exact hkey ▸ hsettled
    · intro d' hd' hid'
      rw [eq_of_mem_write hd' (hid'.trans hkey.symm)]
      exact ⟨hws, hhash⟩
    · refine hsettled.all fun d' hd' hid' => ?_
      rw [eq_of_mem_write hd' hid']
      exact Or.inr (Or.inl rfl)

end IntakeSystem

/-! ### The compensation loop -/

/-- What the mark keeps the loop keeps. -/
private theorem markLoop_keeps {P : IntakeSystem → Prop} {marks : Nat → StepOutcome}
    {mark : IntakeSystem → IntakeSystem} (hmark : ∀ s, P s → P (mark s)) (n k : Nat)
    {s : IntakeSystem} (hs : P s) : P (markLoop marks mark n k s).1 := by
  induction n generalizing k s with
  | zero => exact hs
  | succ n ih =>
    -- an attempt marks the row or leaves it, whether or not it raises
    have hnext : P (if (marks k).landed then mark s else s) := by
      split
      · exact hmark s hs
      · exact hs
    unfold markLoop
    revert hnext
    cases marks k with
    | ok => exact id
    | raised landed => exact ih (k + 1)
    | crashed landed => exact id

/-- What the mark brings about holds after a loop in which an attempt lands. -/
private theorem markLoop_lands {P Q : IntakeSystem → Prop} {marks : Nat → StepOutcome}
    {mark : IntakeSystem → IntakeSystem} (hmark : ∀ s, P s → P (mark s) ∧ Q (mark s)) {n k : Nat}
    {s : IntakeSystem} (hs : P s) (hlands : markLands marks n k = true) :
    Q (markLoop marks mark n k s).1 := by
  induction n generalizing k s with
  | zero => exact absurd hlands Bool.false_ne_true
  | succ n ih =>
    unfold markLoop
    unfold markLands at hlands
    cases hk : marks k with
    | ok => exact (hmark s hs).2
    | crashed landed =>
      simp only [hk, StepOutcome.landed, Bool.or_false] at hlands
      simp only [StepOutcome.landed, hlands, if_true]
      exact (hmark s hs).2
    | raised landed =>
      cases landed with
      | false =>
        simp only [hk, StepOutcome.landed, Bool.false_or] at hlands
        -- the attempt is in vain, so a later one lands
        exact ih hs hlands
      | true =>
        -- a later attempt marks the row again
        have hPQ : ∀ s, P s ∧ Q s → P (mark s) ∧ Q (mark s) := fun s h => hmark s h.1
        exact (markLoop_keeps hPQ n (k + 1) (hmark s hs)).2

/-! ### A whole upload -/

namespace IntakeSystem

/-- The mark of a row that the compensation tries to write. -/
private def markFailed (u : DocumentUpload) (ids : IntakeIds) (s : IntakeSystem) : IntakeSystem :=
  s.modify u.documentId (markDocumentFailed u.workspaceId "ingestion enqueue failed" ids.now)

/-- What the compensation leaves is what its loop leaves. -/
private theorem compensate_fst (u : DocumentUpload) (ids : IntakeIds) (f : IntakeFaults)
    (s : IntakeSystem) : (compensate u ids f s).1 =
      (markLoop f.marks (markFailed u ids) markFailedAttempts 0 s).1 := by
  unfold compensate markDocumentFailedWithRetry markFailed
  split
  · rename_i heq
    rw [heq]
  · rename_i heq
    rw [heq]

/-- The compensation keeps what was recorded, and settles everything when a mark lands. -/
private theorem compensate_accounted {u : DocumentUpload} {bytes : List UInt8} {s : IntakeSystem}
    (h : Recorded u bytes s) (ids : IntakeIds) (f : IntakeFaults)
    (hlands : markLands f.marks markFailedAttempts 0 = true) :
    (compensate u ids f s).1.Accounted := by
  have hmark : ∀ s, Recorded u bytes s →
      Recorded u bytes (markFailed u ids s) ∧ (markFailed u ids s).SettledBut none :=
    fun s hs => hs.mark "ingestion enqueue failed" ids.now
  rw [compensate_fst]
  exact ⟨(markLoop_keeps (fun s hs => (hmark s hs).1) markFailedAttempts 0 h).tracked,
    markLoop_lands (Q := fun s => s.SettledBut none) hmark h hlands⟩

/-- The compensation after a message that was published all the same. -/
private theorem compensate_published {u : DocumentUpload} {bytes : List UInt8} {s : IntakeSystem}
    (h : Recorded u bytes s) (hsettled : s.SettledBut none) (ids : IntakeIds) (f : IntakeFaults) :
    (compensate u ids f s).1.Accounted := by
  have hmark : ∀ s, Recorded u bytes s ∧ s.SettledBut none →
      Recorded u bytes (markFailed u ids s) ∧ (markFailed u ids s).SettledBut none :=
    fun s hs => hs.1.mark "ingestion enqueue failed" ids.now
  rw [compensate_fst]
  obtain ⟨hend, hsettled⟩ := markLoop_keeps hmark markFailedAttempts 0 ⟨h, hsettled⟩
  exact ⟨hend.tracked, hsettled⟩

/-- After publishing, the upload is still recorded. -/
private theorem Recorded.publish_recorded {u : DocumentUpload} {bytes : List UInt8}
    {s : IntakeSystem} (h : Recorded u bytes s) (nowIso : String) :
    Recorded u bytes (s.publish (u.message nowIso)) where
  tracked := (h.publish nowIso).tracked
  settled d hd _ := (h.publish nowIso).settled d hd (Option.some_ne_none _)
  row := h.row
  object := h.object

/-- Steps 6 to 9 of a call that orphans no row. -/
theorem storeAndEnqueue_accounted {u : DocumentUpload} {bytes : List UInt8} {s : IntakeSystem}
    (h : s.Accounted) (hhash : u.contentHash = contentHash bytes) (ids : IntakeIds)
    {f : IntakeFaults} (hf : f.orphans = false) :
    (storeAndEnqueue u bytes ids f s).1.Accounted := by
  have hput := h.putObject u.s3Key bytes
  have hobj : (s.putObject u.s3Key bytes).objects u.s3Key = some bytes := Function.update_self ..
  have hrec := hput.recorded hhash ids.now hobj
  unfold storeAndEnqueue StepOutcome.run
  cases hup : f.uploadFile with
  -- without the object no row is written, whether or not the call landed
  | raised landed => cases landed <;> assumption
  | crashed landed => cases landed <;> assumption
  | ok =>
    cases hper : f.persist with
    | raised landed =>
      -- the row may only have been written by a call that orphans it
      cases landed with
      | false => exact hput
      | true => simp [IntakeFaults.orphans, hup, hper, StepOutcome.landed] at hf
    | crashed landed =>
      cases landed with
      | false => exact hput
      | true => simp [IntakeFaults.orphans, hup, hper, StepOutcome.landed] at hf
    | ok =>
      cases hpub : f.publish with
      | ok => exact hrec.publish ids.nowIso
      | crashed landed =>
        cases landed with
        | false => simp [IntakeFaults.orphans, hup, hper, hpub, StepOutcome.landed] at hf
        | true => exact hrec.publish ids.nowIso
      | raised landed =>
        cases landed with
        | false =>
          simp only [IntakeFaults.orphans, hup, hper, hpub, StepOutcome.landed, decide_true,
            Bool.true_and, Bool.not_eq_false'] at hf
          exact compensate_accounted hrec ids f hf
        | true =>
          -- the message is published although the call raised: the mark may fail
          exact compensate_published (hrec.publish_recorded ids.nowIso)
            (hrec.publish ids.nowIso).settled ids f

/-- Steps 6 to 9 return a status other than `failed` only after they published the message. -/
theorem storeAndEnqueue_enqueued {u : DocumentUpload} {bytes : List UInt8} {s : IntakeSystem}
    (h : s.Accounted) (hhash : u.contentHash = contentHash bytes) {ids : IntakeIds}
    {f : IntakeFaults} {r : DocumentUploadResponse}
    (hr : (storeAndEnqueue u bytes ids f s).2 = .response r) (hstatus : r.status ≠ .failed) :
    (storeAndEnqueue u bytes ids f s).1.Enqueued r.documentId bytes := by
  have hput := h.putObject u.s3Key bytes
  have hobj : (s.putObject u.s3Key bytes).objects u.s3Key = some bytes := Function.update_self ..
  have hrec := hput.recorded hhash ids.now hobj
  unfold storeAndEnqueue StepOutcome.run at hr ⊢
  cases hup : f.uploadFile with
  | raised landed => simp [hup] at hr
  | crashed landed => simp [hup] at hr
  | ok =>
    cases hper : f.persist with
    | raised landed => simp [hup, hper] at hr
    | crashed landed => simp [hup, hper] at hr
    | ok =>
      cases hpub : f.publish with
      | crashed landed => simp [hup, hper, hpub] at hr
      | raised landed =>
        -- the compensation returns `failed`
        simp only [hup, hper, hpub] at hr
        unfold compensate at hr
        split at hr
        · exact absurd hr nofun
        · obtain rfl := IntakeResult.response.inj hr
          exact absurd rfl hstatus
      | ok =>
        simp only [hup, hper, hpub] at hr
        obtain rfl := IntakeResult.response.inj hr
        exact hrec.enqueued ids.nowIso

/-! ### The answers -/

/-- A row that a lookup finds is in the table and has the property. -/
private theorem exists_of_latestDocumentId {s : IntakeSystem} {P : Document → Bool}
    {documentId : String} (h : s.latestDocumentId P = some documentId) :
    ∃ d ∈ s.documents.rows, P d = true ∧ d.documentId = documentId := by
  obtain ⟨d, hd, hid⟩ := Option.map_eq_some_iff.mp h
  obtain ⟨hmem, hP⟩ := List.mem_filter.mp (List.argmax_mem hd)
  exact ⟨d, hmem, hP, hid⟩

/-- A read ends no call with a response. -/
private theorem read_bind_eq_response {α : Type} {o : StepOutcome} {k : Unit → Except IntakeResult α}
    {r : DocumentUploadResponse} :
    (o.read >>= k) = .error (.response r) ↔ o = .ok ∧ k () = .error (.response r) := by
  cases o with
  | ok => exact (and_iff_right rfl).symm
  | raised landed => exact iff_of_false nofun fun h => nomatch h.1
  | crashed landed => exact iff_of_false nofun fun h => nomatch h.1

/-- The row that answers an upload of known bytes: it has their hash and is not failed. -/
private theorem admitIntake_response {c : IntakeConfig} {s : IntakeSystem} {req : IntakeRequest}
    {ids : IntakeIds} {f : IntakeFaults} {r : DocumentUploadResponse}
    (h : admitIntake c req ids f s = .error (.response r)) :
    ∃ d ∈ s.documents.rows, d.row.contentHash = some (contentHash req.contentBytes) ∧
      d.row.status ≠ .failed ∧ d.documentId = r.documentId := by
  unfold admitIntake at h
  cases hval : c.fileTypes.validate req with
  | error detail => rw [hval] at h; cases h
  | ok contentType =>
    rw [hval] at h
    obtain ⟨-, h⟩ := read_bind_eq_response.mp h
    split at h
    · -- the lookup by hash found a row, which the two reads after it see again
      rename_i documentId hlookup
      obtain ⟨-, h⟩ := read_bind_eq_response.mp h
      split at h
      · rename_i existing hexisting
        split at h
        · rename_i hstatus
          obtain ⟨-, h⟩ := read_bind_eq_response.mp h
          obtain rfl := IntakeResult.response.inj (Except.error.inj h)
          obtain ⟨d₀, hd₀, hP, hid₀⟩ := exists_of_latestDocumentId (Option.filter_eq_some_iff.mp
            hlookup).1
          obtain ⟨hrow, -⟩ := Option.filter_eq_some_iff.mp hexisting
          obtain ⟨d, hfind, rfl⟩ := Option.map_eq_some_iff.mp hrow
          obtain ⟨hd, hid⟩ := UniqueTable.find?_eq_some.mp hfind
          obtain rfl := UniqueTable.eq_of_key_eq hd hd₀ (hid.trans hid₀.symm)
          exact ⟨d, hd, (of_decide_eq_true hP).2, hstatus, rfl⟩
        · cases h
      · cases h
    · obtain ⟨-, h⟩ := read_bind_eq_response.mp h
      split at h <;> cases h

/-- What the whole call returns with a status other than `failed`. -/
theorem Accounted.enqueued {c : IntakeConfig} {s : IntakeSystem} (h : s.Accounted)
    {req : IntakeRequest} {ids : IntakeIds} {f : IntakeFaults} {r : DocumentUploadResponse}
    (hr : (intakeDocument c req ids f s).2 = .response r) (hstatus : r.status ≠ .failed) :
    (intakeDocument c req ids f s).1.Enqueued r.documentId req.contentBytes := by
  unfold intakeDocument at hr ⊢
  cases haccept : admitIntake c req ids f s with
  | error result =>
    rw [haccept] at hr
    -- nothing was written: the row that answered is settled
    obtain rfl : result = .response r := hr
    obtain ⟨d, hd, hhash, hnot, hid⟩ := admitIntake_response haccept
    rcases h.settled d hd (Option.some_ne_none _) with hnone | hfailed | ⟨i, m, hm⟩
    · rw [hnone] at hhash
      cases hhash
    · exact absurd hfailed hnot
    · obtain ⟨b, hb, heq⟩ := h.tracked.bytes d hd _ hhash i m hm
      exact ⟨i, m, hid ▸ hm, contentHash_injective heq ▸ hb⟩
  | ok plan =>
    rw [haccept] at hr
    cases howner : f.ownerLookup with
    | raised landed => rw [howner] at hr; cases hr
    | crashed landed => rw [howner] at hr; cases hr
    | ok =>
      rw [howner] at hr
      exact storeAndEnqueue_enqueued h rfl hr hstatus

/-- A call that orphans no row keeps the invariant. -/
theorem Accounted.intakeDocument {c : IntakeConfig} {s : IntakeSystem} (h : s.Accounted)
    {req : IntakeRequest} {ids : IntakeIds} {f : IntakeFaults}
    (hf : s.Compensated c (.upload req ids f)) :
    (Inherent.intakeDocument c req ids f s).1.Accounted := by
  unfold Inherent.intakeDocument
  cases haccept : admitIntake c req ids f s with
  | error result => exact h
  | ok plan =>
    cases howner : f.ownerLookup with
    | raised landed => exact h
    | crashed landed => exact h
    | ok => exact storeAndEnqueue_accounted h rfl ids (hf plan haccept howner)

/-! ### The writes of the ingestion service -/

/-- Writing chunks leaves the id and the hash of the row. -/
private theorem writeChunks_row (c : StoreCall) (inserted : Bool) (d : Document) :
    (c.writeChunks inserted d).documentId = d.documentId ∧
      (c.writeChunks inserted d).row.contentHash = d.row.contentHash := by
  simp only [StoreCall.writeChunks, Document.documentId, StoreCall.grow,
    apply_ite ProcessedDocument.documentId, apply_ite ProcessedDocument.contentHash, ite_self,
    and_self]

/-- So does a claim. -/
private theorem claim_row (c : PendingCall) (row : ProcessedDocument) :
    (c.claim row).documentId = row.documentId ∧ (c.claim row).contentHash = row.contentHash := by
  unfold PendingCall.claim
  split
  · exact ⟨rfl, rfl⟩
  · exact ⟨rfl, rfl⟩

/-- A write of the ingestion service inserts a row without a hash. -/
private theorem apply_none {w : IngestionWrite} {d' : Document} (h : w.apply none = some d') :
    d'.documentId = w.documentId ∧ d'.row.contentHash = none := by
  cases w with
  | claim c =>
    obtain rfl := Option.some.inj h
    exact claim_row c c.insertValues
  -- a status write inserts no row
  | setStatus documentId c => cases h
  | store c =>
    obtain rfl := Option.some.inj h
    exact writeChunks_row c true ⟨c.insertValues, .empty⟩

/-- It keeps the id and the hash of a row that is there. -/
private theorem apply_some {w : IngestionWrite} {d d' : Document} (h : w.apply (some d) = some d') :
    d'.documentId = d.documentId ∧ d'.row.contentHash = d.row.contentHash := by
  cases w with
  | claim c =>
    obtain rfl := Option.some.inj h
    exact claim_row c d.row
  | setStatus documentId c =>
    simp only [IngestionWrite.apply, updateDocumentStatus] at h
    split at h
    · obtain rfl := Option.some.inj h
      exact ⟨rfl, rfl⟩
    · obtain rfl := Option.some.inj h
      exact ⟨rfl, rfl⟩
  | store c =>
    simp only [IngestionWrite.apply, storeProcessedDocument] at h
    split at h
    · obtain rfl := Option.some.inj h
      exact writeChunks_row c false { d with row := c.updateSet d.row }
    · obtain rfl := Option.some.inj h
      exact ⟨rfl, rfl⟩

/-- It keeps the invariant unless it moves an unqueued row out of `failed`. -/
theorem Accounted.ingestion {c : IntakeConfig} {s : IntakeSystem} (h : s.Accounted)
    {w : IngestionWrite} (hw : s.Compensated c (.ingestion w)) :
    (s.modify w.documentId w.apply).Accounted := by
  unfold modify
  cases happly : w.apply (s.documents.find? w.documentId) with
  | none => exact h
  | some d' =>
    refine ⟨h.tracked.write d', (h.settled.write (Or.inl rfl)).all fun d hd hid => ?_⟩
    rw [eq_of_mem_write hd hid]
    cases hfind : s.documents.find? w.documentId with
    | none => exact Or.inl (apply_none (hfind ▸ happly)).2
    | some d₀ =>
      rw [hfind] at happly
      obtain ⟨hid', hhash⟩ := apply_some happly
      obtain ⟨hd₀, hid₀⟩ := UniqueTable.find?_eq_some.mp hfind
      have hfind' : s.documents.find? d'.documentId = some d₀ := by rw [hid', hid₀, hfind]
      by_cases hnone : d'.row.contentHash = none
      · exact Or.inl hnone
      by_cases hfailed : d'.row.status = .failed
      · exact Or.inr (Or.inl hfailed)
      -- its message is published: it was before, or the condition says so
      have hmessaged : s.Messaged d₀.documentId := by
        rcases h.settled d₀ hd₀ (Option.some_ne_none _) with hnone₀ | hfailed₀ | hm
        · exact absurd (hhash.trans hnone₀) hnone
        · have hne : d₀.row.contentHash ≠ none := fun h₀ => hnone (hhash.trans h₀)
          exact hid₀ ▸ hw d₀ hfind hne hfailed₀ d' happly hfailed
        · exact hm
      obtain ⟨i, m, hm⟩ := hmessaged
      refine Or.inr (Or.inr ⟨i, m, ?_⟩)
      rw [publishedAt_write_of_hash hfind' hhash.symm, hid']
      exact hm

/-! ## Runs -/

/-- One event that meets the condition keeps the invariant. -/
theorem accounted_step {c : IntakeConfig} (s : IntakeSystem) (e : IntakeEvent) (s' : IntakeSystem)
    (h : s.Accounted) (he : s.Compensated c e) (hstep : s.step c e = some s') : s'.Accounted := by
  cases e with
  | upload req ids f =>
    simp only [step] at hstep
    split at hstep
    · obtain rfl := Option.some.inj hstep
      exact h.intakeDocument he
    · exact absurd hstep nofun
  | ingestion w =>
    obtain rfl := Option.some.inj hstep
    exact h.ingestion he

/-- In a run whose events meet the condition no upload is accepted silently. -/
theorem neverSilent_of_compensated {c : IntakeConfig} {es : List IntakeEvent} {s : IntakeSystem}
    (hrun : exec (step c) {} es = some s) (hes : AllSteps (step c) (Compensated c) {} es) :
    AllSteps (step c) (NeverSilent c) {} es := by
  refine allSteps_imp_of_invariant (I := Accounted) accounted_step ?_ accounted_start hes hrun
  intro s e s' h he hstep
  cases e with
  | upload req ids f => exact fun r hr hstatus => h.enqueued hr hstatus
  | ingestion w => trivial

/-- Plain text, stored as it is declared. -/
def sampleIntake : IntakeConfig where
  fileTypes := { resolveUploadSpec := fun _ _ => some ⟨{ key := "text" }, false⟩ }
  bucket := "documents"

/-- A file of one byte. -/
def sampleRequest : IntakeRequest where
  workspaceId := "ws"
  userId := "user"
  contentBytes := [65]
  filename := "a.txt"
  contentType := "text/plain"

/-- The ids of its two uploads. -/
def sampleIds : IntakeIds × IntakeIds := (⟨"doc-1", "key-1", 1, "t1"⟩, ⟨"doc-2", "key-2", 2, "t2"⟩)

/-- Publishing fails once, and the mark lands on its second attempt. -/
def markedRun : List IntakeEvent :=
  [.upload sampleRequest sampleIds.1 {
      publish := .raised false
      marks := fun k => if k = 0 then .raised false else .ok },
    .upload sampleRequest sampleIds.2 {}]

theorem neverSilent_markedRun :
    AllSteps (step sampleIntake) (NeverSilent sampleIntake) {} markedRun := by
  obtain ⟨s, hrun⟩ := Option.isSome_iff_exists.mp
    (by decide : (exec (step sampleIntake) {} markedRun).isSome = true)
  refine neverSilent_of_compensated hrun ?_
  exact (allSteps_cons rfl).mpr ⟨fun _ _ _ => by decide,
    (allSteps_cons rfl).mpr ⟨fun _ _ _ => by decide, trivial⟩⟩

/-- Publishing fails, and so does every attempt to mark the row failed. -/
def orphanedRun : List IntakeEvent :=
  [.upload sampleRequest sampleIds.1 {
      publish := .raised false
      marks := fun _ => .raised false },
    .upload sampleRequest sampleIds.2 {}]

/-- The second upload of the same bytes is answered with `pending`, and nothing is published. -/
theorem not_neverSilent_orphanedRun :
    (exec (step sampleIntake) {} orphanedRun).isSome = true ∧
      ¬ AllSteps (step sampleIntake) (NeverSilent sampleIntake) {} orphanedRun := by
  refine ⟨by decide, fun h => ?_⟩
  obtain ⟨-, hsecond⟩ := (allSteps_cons rfl).mp h
  obtain ⟨i, m, ⟨-, hi, -⟩, -⟩ := hsecond.1 _ rfl (by decide)
  cases hi

end IntakeSystem

end Inherent
