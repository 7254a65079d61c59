import Inherent.ForStd.Gather
import Inherent.Native.EmbeddingIdentity
import Inherent.Native.TagSearch
import Inherent.Native.WorkspaceAccess

/-!
# Search across workspaces

`_search_workspaces_concurrently` and `_retrieve_multi`
(`src/services/inh-public-api-svc/src/api/v1/search.py`), over the search of one workspace
(`SearchService.search` with `_ensure_identity_checked`).  The query is embedded before the
searches start, and they complete in any order.
-/

namespace Inherent

/-- What the searches of one request meet, for each workspace. -/
structure SearchBackend where
  /-- The tag fields of the workspace's pack. -/
  packFields : String → Option (List String)
  settings : String → SearchSettings
  activeIdentity : EmbeddingIdentity
  /-- The collection is in `_identity_checked`. -/
  identityChecked : String → Bool
  /-- What `decode_identity` reads from the schema, `none` when the endpoint does not answer. -/
  collectionIdentity : String → Option (Option EmbeddingIdentity)
  outcome : String → QueryOutcome

/-- What the search of a workspace raises. -/
inductive WorkspaceError where
  | identity (e : EmbeddingIdentityError)
  | search (e : SearchError)
  deriving DecidableEq, Repr

/-- `_ensure_identity_checked`: an unstamped collection passes. -/
def SearchBackend.ensureIdentityChecked (backend : SearchBackend) (workspaceId : String) :
    Except EmbeddingIdentityError Unit :=
  if backend.identityChecked workspaceId then .ok ()
  else
    match backend.collectionIdentity workspaceId with
    | none | some none => .ok ()
    | some (some persisted) =>
      (resolveIdentity (some persisted) backend.activeIdentity none false).map fun _ => ()

/-- `search` of one workspace; a keyword search has no query vector. -/
def workspaceSearch (tokenization : WordTokenization) (backend : SearchBackend)
    (hasVector : Bool) (request : SearchRequest) (workspaceId : String) :
    Except WorkspaceError (List SearchHit) :=
  match validateTagFilters (backend.packFields workspaceId) request.filters with
  | .error e => .error (.search (.tagFilter e))
  | .ok () =>
    match if hasVector then backend.ensureIdentityChecked workspaceId else .ok () with
    | .error e => .error (.identity e)
    | .ok () =>
      match searchWeaviate tokenization (backend.settings workspaceId) request
          (backend.outcome workspaceId) with
      | none => .error (.search .weaviate)
      | some hits => .ok hits

/-- `_search_one`: a mismatch of the embedding identity is raised, and any other error leaves
    the workspace without results. -/
def searchOne : Except WorkspaceError (List SearchHit) →
    Except EmbeddingIdentityError (List SearchHit)
  | .ok hits => .ok hits
  | .error (.identity e) => .error e
  | .error (.search _) => .ok []

/-- `_search_workspaces_concurrently`, for the searches' answers and the order in which they
    complete; `none` while one of them is out. -/
def searchWorkspacesConcurrently (answer : String → Except WorkspaceError (List SearchHit))
    (workspaceIds : List String) (order : List Nat) :
    Option (Except EmbeddingIdentityError (List SearchHit)) :=
  let tasks := workspaceIds.map fun workspaceId => searchOne (answer workspaceId)
  (Gather.gather (fun i => tasks[i]?.getD (.ok [])) tasks.length order).map
    fun result => result.map List.flatten

/-- The key `(-r.score, r.chunk_id, r.document_id)`. -/
def mergeKey (hit : SearchHit) : ℚ ×ₗ String ×ₗ String :=
  toLex (-hit.score, toLex (hit.chunk.chunkId, hit.chunk.documentId))

/-- `_retrieve_multi`. -/
def retrieveMulti (answer : String → Except WorkspaceError (List SearchHit))
    (workspaceIds : List String) (limit : Nat) (order : List Nat) :
    Option (Except EmbeddingIdentityError (List SearchHit)) :=
  (searchWorkspacesConcurrently answer workspaceIds order).map fun result =>
    result.map fun merged =>
      (merged.mergeSort fun a b => mergeKey a ≤ mergeKey b).take limit

/-- The multi-workspace branch of the search endpoint, up to its quality gate. -/
def searchAllWorkspaces {ObjectId : Type} [DecidableEq ObjectId] {codec : ObjectIdCodec ObjectId}
    (state : AccessState codec) (lookups : Lookups) (userId : String)
    (answer : String → Except WorkspaceError (List SearchHit)) (limit : Nat)
    (order : List Nat) : Option (Except EmbeddingIdentityError (List SearchHit)) :=
  let userWorkspaces := state.getUserWorkspaceIds lookups userId
  if userWorkspaces = [] then some (.ok [])
  else retrieveMulti answer userWorkspaces limit order

end Inherent
