import Inherent.ForStd.WordTokens
import Inherent.Native.Conversation
import Inherent.Native.Store

/-!
# The objects of a user's tenant

The tenant of one user in the collection of a workspace holds the objects of all the
user's documents.  `document_id` is a `TEXT` property of the schema
(`_get_chunk_properties`), so Weaviate cuts it into words, and `Equal` on it holds for
every object whose `document_id` has all the words of the value.  Both services delete a
document with that filter: `delete_document_chunks_with_tenant`
(`src/services/inh-ingestion-svc/src/services/weaviate.py`) and `delete_document_vectors`
(`src/services/inh-public-api-svc/src/services/search.py`).
-/

namespace Inherent

open WordTokens

/-- Weaviate's `word` tokenization, of which only ASCII is fixed: letters and digits make
    words, and are put in lower case. -/
structure WordTokenization extends Tokenizer Char where
  isWord_ascii : ∀ c : Char, c.toNat < 128 → isWord c = c.isAlphanum
  lower_ascii : ∀ c : Char, c.toNat < 128 → lower c = c.toLower

/-- The tokenization in which every other character separates words. -/
def WordTokenization.ascii : WordTokenization where
  isWord := Char.isAlphanum
  lower := Char.toLower
  isWord_ascii _ _ := rfl
  lower_ascii _ _ := rfl

/-- The objects of a tenant.  An object's id is computed from the workspace, the user, the
    document and the chunk index (`chunk_object_uuid`), and the first two are the tenant's. -/
abbrev VectorTenant := UniqueTable fun o : VectorObject => (o.documentId, o.chunkIndex)

/-- The filter `document_id Equal value`. -/
def VectorObject.hasDocumentId (tokenization : WordTokenization) (value : String)
    (o : VectorObject) : Prop :=
  tokenization.Contains o.documentId.toList value.toList

instance (tokenization : WordTokenization) (value : String) (o : VectorObject) :
    Decidable (o.hasDocumentId tokenization value) :=
  inferInstanceAs (Decidable (tokenization.Contains o.documentId.toList value.toList))

namespace VectorTenant

variable (tokenization : WordTokenization)

/-- A batch delete of the objects that match the filter, and their number. -/
def deleteMany (tenant : VectorTenant) (documentId : String) : VectorTenant × Nat :=
  let kept := UniqueTable.filter tenant fun o => ¬ o.hasDocumentId tokenization documentId
  (kept, tenant.size - kept.size)

/-- `delete_document_chunks_with_tenant`. -/
def deleteDocumentChunksWithTenant (tenant : VectorTenant) (documentId : String) :
    VectorTenant × Nat :=
  tenant.deleteMany tokenization documentId

/-- The answer to a `DELETE /v1/batch/objects`; `missingClass` says whether the body names
    the collection as a class that could not be found. -/
structure BatchDeleteResponse where
  statusCode : Nat
  body : String
  missingClass : Bool
  successful : Nat
  failed : Nat
deriving DecidableEq, Repr

/-- What `delete_document_vectors` makes of the answer: the number it returns, or the error
    it raises. -/
def readBatchDelete (documentId : String) (response : BatchDeleteResponse) :
    Except String Nat :=
  if response.statusCode ≠ 200 then
    if response.missingClass then .ok 0
    else
      .error (s!"Weaviate batch delete failed ({response.statusCode}): " ++
        String.ofList (response.body.toList.take 500))
  else if response.failed ≠ 0 then
    .error s!"Weaviate batch delete left {response.failed} objects for document {documentId}"
  else .ok response.successful

/-- `delete_document_vectors` of a tenant that Weaviate serves. -/
def deleteDocumentVectors (tenant : VectorTenant) (documentId : String) :
    VectorTenant × Except String Nat :=
  let (kept, deleted) := tenant.deleteMany tokenization documentId
  (kept, readBatchDelete documentId
    { statusCode := 200, body := "", missingClass := false, successful := deleted, failed := 0 })

/-- A reprocessing of a document: `store_in_weaviate` deletes, and writes the staged chunks. -/
def reprocess (tenant : VectorTenant) (input : StoreDocumentInput) (ingestTime : Timestamp)
    (staged : List StagedChunk) : VectorTenant :=
  (tenant.deleteDocumentChunksWithTenant tokenization input.documentId).1.putAll
    (input.vectorObjects ingestTime staged)

end VectorTenant

/-! ## Document ids -/

/-- The hex digits of `str(uuid)`. -/
def hexDigits : List Char :=
  ['0', '1', '2', '3', '4', '5', '6', '7', '8', '9', 'a', 'b', 'c', 'd', 'e', 'f']

/-- The five groups of hex digits of a UUID. -/
structure Uuid where
  timeLow : List Char
  timeMid : List Char
  timeHigh : List Char
  clockSeq : List Char
  node : List Char
  lengths : timeLow.length = 8 ∧ timeMid.length = 4 ∧ timeHigh.length = 4 ∧
    clockSeq.length = 4 ∧ node.length = 12
  hex : ∀ c ∈ timeLow ++ timeMid ++ timeHigh ++ clockSeq ++ node, c ∈ hexDigits

namespace Uuid

/-- The groups, in order. -/
def groups (u : Uuid) : List (List Char) :=
  [u.timeLow, u.timeMid, u.timeHigh, u.clockSeq, u.node]

/-- `str(uuid)`. -/
def text (u : Uuid) : List Char :=
  u.timeLow ++ '-' :: (u.timeMid ++ '-' :: (u.timeHigh ++ '-' :: (u.clockSeq ++ '-' :: u.node)))

end Uuid

/-- The document ids that the services make: a UUID for an uploaded file, and
    `conversation_document_id`, which embeds the caller's `external_id`. -/
inductive MintedId where
  | uuid (u : Uuid)
  | conversation (workspaceId externalId : String)

/-- The id as it is stored. -/
def MintedId.text : MintedId → String
  | .uuid u => String.ofList u.text
  | .conversation workspaceId externalId => conversationDocumentId workspaceId externalId

end Inherent
