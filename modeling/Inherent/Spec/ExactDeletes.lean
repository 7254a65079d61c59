import Inherent.Native.VectorTenant

/-!
# Deleting a document from a tenant

A delete by document id takes every object whose `document_id` has all the words of the
id.  For the ids that the services make, this file says which other documents that is:
a UUID's words are its five groups, and the words of a conversation's id are `conv` and
those of the workspace and of the caller's text.
-/

namespace Inherent

open WordTokens

/-! ## The words of an id -/

private theorem hexDigits_ascii : ∀ c ∈ hexDigits, c.toNat < 128 := by simp [hexDigits]

private theorem hexDigits_isAlphanum : ∀ c ∈ hexDigits, c.isAlphanum = true :=
  List.all_eq_true.mp (by decide)

private theorem hexDigits_toLower : ∀ c ∈ hexDigits, c.toLower = c := by simp [hexDigits]

section

variable (tokenization : WordTokenization)

private theorem isWord_dash : tokenization.isWord '-' = false :=
  (tokenization.isWord_ascii '-' (by decide)).trans (by decide)

/-- Lower-case letters and digits are one word. -/
private theorem words_of_ascii {text : List Char} (hne : text ≠ [])
    (hascii : ∀ c ∈ text, c.toNat < 128) (hword : ∀ c ∈ text, c.isAlphanum = true)
    (hlower : ∀ c ∈ text, c.toLower = c) : tokenization.words text = [text] := by
  have hmap : text.map tokenization.lower = text := by
    rw [List.map_congr_left fun c hc => (tokenization.lower_ascii c (hascii c hc)).trans
      (hlower c hc), List.map_id']
  rw [tokenization.words_of_forall hne, hmap]
  intro c hc
  rw [tokenization.isWord_ascii c (hascii c hc), hword c hc]

private theorem words_hex {text : List Char} (hne : text ≠ []) (h : ∀ c ∈ text, c ∈ hexDigits) :
    tokenization.words text = [text] :=
  words_of_ascii tokenization hne (fun c hc => hexDigits_ascii c (h c hc))
    (fun c hc => hexDigits_isAlphanum c (h c hc)) fun c hc => hexDigits_toLower c (h c hc)

theorem Uuid.mem_hexDigits (u : Uuid) {group : List Char} (hgroup : group ∈ u.groups) :
    ∀ c ∈ group, c ∈ hexDigits := by
  intro c hc
  apply u.hex
  simp only [groups, List.mem_cons, List.not_mem_nil, or_false] at hgroup
  rcases hgroup with rfl | rfl | rfl | rfl | rfl <;> simp [hc]

theorem Uuid.ne_nil (u : Uuid) {group : List Char} (hgroup : group ∈ u.groups) : group ≠ [] := by
  have hlengths := u.lengths
  simp only [groups, List.mem_cons, List.not_mem_nil, or_false] at hgroup
  rintro rfl
  rcases hgroup with h | h | h | h | h <;> simp [← h] at hlengths

/-- The words of a UUID are its groups. -/
theorem words_uuid (u : Uuid) : tokenization.words u.text = u.groups := by
  have hgroup : ∀ group ∈ u.groups, tokenization.words group = [group] := fun group hg =>
    words_hex tokenization (u.ne_nil hg) (u.mem_hexDigits hg)
  have hdash := isWord_dash tokenization
  unfold Uuid.text
  rw [tokenization.words_append_cons _ _ hdash, tokenization.words_append_cons _ _ hdash,
    tokenization.words_append_cons _ _ hdash, tokenization.words_append_cons _ _ hdash,
    hgroup u.timeLow (by simp [Uuid.groups]), hgroup u.timeMid (by simp [Uuid.groups]),
    hgroup u.timeHigh (by simp [Uuid.groups]), hgroup u.clockSeq (by simp [Uuid.groups]),
    hgroup u.node (by simp [Uuid.groups])]
  rfl

/-- The words of a conversation's id. -/
theorem words_conversation (workspaceId externalId : String) :
    tokenization.words (conversationDocumentId workspaceId externalId).toList =
      ['c', 'o', 'n', 'v'] ::
        (tokenization.words workspaceId.toList ++ tokenization.words externalId.toList) := by
  have htext : (conversationDocumentId workspaceId externalId).toList =
      ['c', 'o', 'n', 'v'] ++ '-' :: (workspaceId.toList ++ '-' :: externalId.toList) := by
    simp [conversationDocumentId, conversationWorkflowId]
  have hconv : tokenization.words ['c', 'o', 'n', 'v'] = [['c', 'o', 'n', 'v']] :=
    words_of_ascii tokenization (by simp) (by simp) (List.all_eq_true.mp (by decide))
      (by simp)
  have hdash := isWord_dash tokenization
  rw [htext, tokenization.words_append_cons _ _ hdash, tokenization.words_append_cons _ _ hdash,
    hconv]
  rfl

/-! ## Which ids a delete takes -/

/-- A delete of the first document takes the second: two UUIDs with the same first and last
    group, the middle groups of the first among those of the second; a UUID whose groups are
    all words of the conversation's workspace and text; or a conversation whose words are
    all among those of the other. -/
def Takes : MintedId → MintedId → Prop
  | .uuid u, .uuid v => u.timeLow = v.timeLow ∧ u.node = v.node ∧
      [u.timeMid, u.timeHigh, u.clockSeq] ⊆ [v.timeMid, v.timeHigh, v.clockSeq]
  | .uuid u, .conversation workspaceId externalId =>
      u.groups ⊆ tokenization.words workspaceId.toList ++ tokenization.words externalId.toList
  | .conversation _ _, .uuid _ => False
  | .conversation workspaceId externalId, .conversation workspaceId' externalId' =>
      tokenization.words workspaceId.toList ++ tokenization.words externalId.toList ⊆
        ['c', 'o', 'n', 'v'] ::
          (tokenization.words workspaceId'.toList ++ tokenization.words externalId'.toList)

/-- No group of a UUID is the first word of a conversation's id. -/
theorem Uuid.conv_not_mem_groups (u : Uuid) : ['c', 'o', 'n', 'v'] ∉ u.groups := by
  intro h
  exact absurd (u.mem_hexDigits h 'o' (by decide)) (by decide)

theorem Uuid.mem_groups_iff (v : Uuid) {x : List Char} :
    x ∈ v.groups ↔
      x = v.timeLow ∨ x ∈ [v.timeMid, v.timeHigh, v.clockSeq] ∨ x = v.node := by
  simp only [groups, List.mem_cons, List.not_mem_nil, or_false, or_assoc]

/-- The length of a middle group. -/
theorem Uuid.length_of_mem_middle (v : Uuid) {x : List Char}
    (hx : x ∈ [v.timeMid, v.timeHigh, v.clockSeq]) : x.length = 4 := by
  obtain ⟨-, hmid, hhigh, hseq, -⟩ := v.lengths
  simp only [List.mem_cons, List.not_mem_nil, or_false] at hx
  rcases hx with rfl | rfl | rfl
  · exact hmid
  · exact hhigh
  · exact hseq

/-- The lengths of the groups tell the first, the middle and the last ones apart. -/
theorem Uuid.groups_subset_iff (u v : Uuid) :
    u.groups ⊆ v.groups ↔ u.timeLow = v.timeLow ∧ u.node = v.node ∧
      [u.timeMid, u.timeHigh, u.clockSeq] ⊆ [v.timeMid, v.timeHigh, v.clockSeq] := by
  -- the groups at the ends have lengths of their own, the three in the middle have the same
  have hlow : u.timeLow.length = 8 := u.lengths.1
  have hnode : u.node.length = 12 := u.lengths.2.2.2.2
  have hlow' : v.timeLow.length = 8 := v.lengths.1
  have hnode' : v.node.length = 12 := v.lengths.2.2.2.2
  constructor
  · intro h
    refine ⟨?_, ?_, ?_⟩
    · rcases v.mem_groups_iff.mp (h (u.mem_groups_iff.mpr (Or.inl rfl))) with heq | hmid | heq
      · exact heq
      · have := v.length_of_mem_middle hmid
        omega
      · have := congrArg List.length heq
        omega
    · rcases v.mem_groups_iff.mp (h (u.mem_groups_iff.mpr (Or.inr (Or.inr rfl)))) with
        heq | hmid | heq
      · have := congrArg List.length heq
        omega
      · have := v.length_of_mem_middle hmid
        omega
      · exact heq
    · intro x hx
      have hlen := u.length_of_mem_middle hx
      rcases v.mem_groups_iff.mp (h (u.mem_groups_iff.mpr (Or.inr (Or.inl hx)))) with
        heq | hmid | heq
      · have := congrArg List.length heq
        omega
      · exact hmid
      · have := congrArg List.length heq
        omega
  · intro h x hx
    obtain ⟨hlows, hnodes, hmiddle⟩ := h
    rw [v.mem_groups_iff, ← hlows, ← hnodes]
    exact (u.mem_groups_iff.mp hx).imp_right fun hx => hx.imp_left fun hx => hmiddle hx

/-- The ids of the documents whose objects a delete takes. -/
theorem contains_text_iff (id other : MintedId) :
    tokenization.Contains other.text.toList id.text.toList ↔ Takes tokenization id other := by
  unfold Tokenizer.Contains MintedId.text
  cases id with
  | uuid u =>
    cases other with
    | uuid v =>
      simp only [String.toList_ofList, words_uuid, Takes]
      exact u.groups_subset_iff v
    | conversation workspaceId externalId =>
      simp only [String.toList_ofList, words_uuid, words_conversation, Takes]
      constructor
      · intro h group hgroup
        refine (List.mem_cons.mp (h hgroup)).resolve_left ?_
        rintro rfl
        exact u.conv_not_mem_groups hgroup
      · intro h
        exact List.Subset.trans h (List.subset_cons_self _ _)
  | conversation workspaceId externalId =>
    cases other with
    | uuid v =>
      simp only [String.toList_ofList, words_uuid, words_conversation, Takes, iff_false]
      intro h
      exact v.conv_not_mem_groups (h List.mem_cons_self)
    | conversation workspaceId' externalId' =>
      simp only [words_conversation, Takes, List.cons_subset, List.mem_cons, true_or, true_and]

/-! ## Deleting and reprocessing -/

/-- A delete of the document by either service, and a reprocessing of it, take its objects
    and no others; the objects it has afterwards are those the reprocessing wrote. -/
structure ExactFor (tenant : VectorTenant) (documentId : String) : Prop where
  ingestion : ∀ o, o ∈ (tenant.deleteDocumentChunksWithTenant tokenization documentId).1.rows ↔
    o ∈ tenant.rows ∧ o.documentId ≠ documentId
  publicApi : ∀ o, o ∈ (tenant.deleteDocumentVectors tokenization documentId).1.rows ↔
    o ∈ tenant.rows ∧ o.documentId ≠ documentId
  reprocessed : ∀ (input : StoreDocumentInput) (ingestTime : Timestamp)
    (staged : List StagedChunk), input.documentId = documentId →
      ∀ o, (o ∈ (tenant.reprocess tokenization input ingestTime staged).rows →
          o.documentId = documentId → o ∈ input.vectorObjects ingestTime staged) ∧
        (o.documentId ≠ documentId →
          (o ∈ (tenant.reprocess tokenization input ingestTime staged).rows ↔ o ∈ tenant.rows))

theorem mem_deleteMany {tenant : VectorTenant} {documentId : String} {o : VectorObject} :
    o ∈ (tenant.deleteMany tokenization documentId).1.rows ↔
      o ∈ tenant.rows ∧ ¬ o.hasDocumentId tokenization documentId := by
  unfold VectorTenant.deleteMany
  rw [UniqueTable.mem_filter, decide_eq_true_eq]

/-- The objects of a document have all the words of its id. -/
theorem hasDocumentId_self (o : VectorObject) : o.hasDocumentId tokenization o.documentId :=
  tokenization.contains_refl _

theorem documentId_of_mem_vectorObjects {input : StoreDocumentInput} {ingestTime : Timestamp}
    {staged : List StagedChunk} {o : VectorObject}
    (h : o ∈ input.vectorObjects ingestTime staged) : o.documentId = input.documentId := by
  obtain ⟨chunk, -, rfl⟩ := List.mem_map.mp h
  rfl

/-- Deleting and reprocessing a document are exact when no other document's id has all the
    words of its id, whatever the ids are. -/
theorem exactFor_iff_forall_objects (tenant : VectorTenant) (documentId : String) :
    ExactFor tokenization tenant documentId ↔
      ∀ o ∈ tenant.rows, o.documentId ≠ documentId →
        ¬ o.hasDocumentId tokenization documentId := by
  constructor
  · intro h o ho hne
    exact ((mem_deleteMany tokenization).mp ((h.ingestion o).mpr ⟨ho, hne⟩)).2
  · intro h
    have hdelete : ∀ o, o ∈ (tenant.deleteMany tokenization documentId).1.rows ↔
        o ∈ tenant.rows ∧ o.documentId ≠ documentId := by
      intro o
      rw [mem_deleteMany]
      apply and_congr_right
      intro ho
      constructor
      · rintro hnot rfl
        exact hnot (hasDocumentId_self tokenization o)
      · exact h o ho
    refine ⟨hdelete, hdelete, ?_⟩
    intro input ingestTime staged hinput o
    subst hinput
    constructor
    · intro ho hsame
      rcases UniqueTable.mem_of_mem_putAll ho with hnew | ⟨hold, -⟩
      · exact hnew
      · exact absurd hsame ((hdelete o).mp hold).2
    · intro hne
      -- the written objects are all under keys of the document
      have hkey : (o.documentId, o.chunkIndex) ∉
          (input.vectorObjects ingestTime staged).map fun o => (o.documentId, o.chunkIndex) := by
        intro hmem
        obtain ⟨o', ho', hkeys⟩ := List.mem_map.mp hmem
        have hdocument := documentId_of_mem_vectorObjects ho'
        exact hne ((Prod.mk.inj hkeys).1.symm.trans hdocument)
      have hwritten := UniqueTable.mem_putAll_of_not_mem hkey
        (t := (tenant.deleteMany tokenization input.documentId).1)
      exact hwritten.trans ((hdelete o).trans (and_iff_left hne))

/-- In a tenant whose documents have ids that the services make, deleting and reprocessing a
    document are exact when a delete of it takes no other document. -/
theorem exactFor_iff (tenant : VectorTenant)
    (hminted : ∀ o ∈ tenant.rows, ∃ id : MintedId, o.documentId = id.text) (id : MintedId) :
    ExactFor tokenization tenant id.text ↔
      ∀ other : MintedId, (∃ o ∈ tenant.rows, o.documentId = other.text) →
        other.text ≠ id.text → ¬ Takes tokenization id other := by
  rw [exactFor_iff_forall_objects]
  constructor
  · intro h other hother hne htakes
    obtain ⟨o, ho, hid⟩ := hother
    apply h o ho (hid ▸ hne)
    unfold VectorObject.hasDocumentId
    rw [hid, contains_text_iff]
    exact htakes
  · intro h o ho hne hhas
    obtain ⟨other, hid⟩ := hminted o ho
    unfold VectorObject.hasDocumentId at hhas
    rw [hid, contains_text_iff] at hhas
    exact h other ⟨o, ho, hid⟩ (hid ▸ hne) hhas

end

/-! ### A conversation that a delete of another one takes -/

/-- The object of one turn of a conversation. -/
def turnObject (externalId : String) : VectorObject where
  documentId := conversationDocumentId "w1" externalId
  workspaceId := "w1"
  userId := "u1"
  content := "Hello"
  chunkIndex := 0
  startChar := 0
  endChar := 5
  originalFilename := externalId
  contentType := "text/plain"
  createdAt := 0
  contentHash := ⟨"Hello"⟩
  sourceUri := none
  sourceUrl := none
  ingestedAt := 0
  contentRisk := "none"
  contentRiskReasons := []
  chunkingStrategy := ""
  tags := []
  sectionHeading := ""
  reuseCount := 0
  turn := none

/-- The conversations of the given texts, of one turn each. -/
def conversations (externalIds : List String) : VectorTenant :=
  UniqueTable.empty.insertAll (externalIds.map turnObject)

/-- Deleting the conversation "notes" deletes "notes-2024" too. -/
theorem not_exactFor_notes :
    ¬ ExactFor .ascii (conversations ["notes", "notes-2024"])
      (MintedId.conversation "w1" "notes").text := by
  intro h
  have hkept := (h.ingestion (turnObject "notes-2024")).mpr (by decide)
  exact absurd hkept (by decide)

/-- Deleting "notes-2024" is exact. -/
theorem exactFor_notes2024 :
    ExactFor .ascii (conversations ["notes", "notes-2024"])
      (MintedId.conversation "w1" "notes-2024").text := by
  have hrows : ∀ o ∈ (conversations ["notes", "notes-2024"]).rows,
      o = turnObject "notes" ∨ o = turnObject "notes-2024" := by decide
  have hminted : ∀ o ∈ (conversations ["notes", "notes-2024"]).rows,
      ∃ id : MintedId, o.documentId = id.text := by
    intro o ho
    rcases hrows o ho with rfl | rfl
    · exact ⟨.conversation "w1" "notes", rfl⟩
    · exact ⟨.conversation "w1" "notes-2024", rfl⟩
  have hkept : ∀ o ∈ (conversations ["notes", "notes-2024"]).rows,
      o.documentId ≠ (MintedId.conversation "w1" "notes-2024").text →
        ¬ WordTokenization.ascii.Contains o.documentId.toList
          (MintedId.conversation "w1" "notes-2024").text.toList := by decide
  refine (exactFor_iff .ascii _ hminted _).mpr ?_
  intro other hother hne htakes
  obtain ⟨o, ho, hid⟩ := hother
  rw [← contains_text_iff, ← hid] at htakes
  exact hkept o ho (hid ▸ hne) htakes

end Inherent
