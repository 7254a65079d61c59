import Mathlib

/-!
# Workspace authorization of the public API

`_resolve_workspace` and `get_authorized_workspace_ids`
(`src/services/inh-public-api-svc/src/services/auth.py`) over the Mongo `workspaces`
collection and the upload rows of PostgreSQL
(`src/services/inh-public-api-svc/src/services/database.py`, `workspace_roles.py`).
`bson.ObjectId` is a parameter.  The calls of one resolution that may fail are the fields
of `Lookups`.
-/

namespace Inherent

/-! ## Roles -/

/-- `WorkspaceRole`. -/
inductive WorkspaceRole where
  | owner
  | admin
  | member
  | viewer
deriving DecidableEq, Repr

namespace WorkspaceRole

/-- A role text in `VALID_ROLES`. -/
def ofString? : String → Option WorkspaceRole
  | "owner" => some .owner
  | "admin" => some .admin
  | "member" => some .member
  | "viewer" => some .viewer
  | _ => none

/-- `role in WRITE_ROLES`. -/
def mayWrite : WorkspaceRole → Bool
  | .owner | .admin | .member => true
  | .viewer => false

/-- `_ROLE_RANK`. -/
def rank : WorkspaceRole → Nat
  | .viewer => 0
  | .member => 1
  | .admin => 2
  | .owner => 3

end WorkspaceRole

/-! ## The `workspaces` collection -/

/-- `bson.ObjectId`: the constructor from a string, `none` for `InvalidId`, and `str`. -/
structure ObjectIdCodec (ObjectId : Type) where
  parse : String → Option ObjectId
  str : ObjectId → String
  parse_str : ∀ o, parse (str o) = some o

/-- No text is one of an `ObjectId`: `bson` accepts 24 hex digits only. -/
def noObjectIds : ObjectIdCodec Empty := ⟨fun _ => none, nofun, nofun⟩

/-- An id as it is stored, by one writer or the other. -/
inductive BsonId (ObjectId : Type) where
  | string (s : String)
  | objectId (o : ObjectId)
deriving DecidableEq

/-- An element of `members`; `role` is its text, if it has one. -/
inductive MemberEntry (ObjectId : Type) where
  | dict (userId : Option (BsonId ObjectId)) (role : Option String)
  | other
deriving DecidableEq

/-- The `members` field. -/
inductive MembersField (ObjectId : Type) where
  | absent
  | null
  | list (entries : List (MemberEntry ObjectId))
deriving DecidableEq

/-- The fields of a `workspaces` document that the service reads. -/
structure WorkspaceDoc (ObjectId : Type) where
  id : BsonId ObjectId
  userId : Option (BsonId ObjectId)
  members : MembersField ObjectId
deriving DecidableEq

variable {ObjectId : Type}

namespace MembersField

/-- `doc.get("members") or []`. -/
def entries : MembersField ObjectId → List (MemberEntry ObjectId)
  | absent | null => []
  | list entries => entries

/-- `{"members": {"$exists": True}}`. -/
def Exists (members : MembersField ObjectId) : Prop :=
  match members with
  | absent => False
  | null | list _ => True

instance (members : MembersField ObjectId) : Decidable members.Exists :=
  match members with
  | absent => inferInstanceAs (Decidable False)
  | null => inferInstanceAs (Decidable True)
  | list _ => inferInstanceAs (Decidable True)

end MembersField

namespace ObjectIdCodec

variable (codec : ObjectIdCodec ObjectId)

/-- `str` of an id. -/
def strId : BsonId ObjectId → String
  | .string s => s
  | .objectId o => codec.str o

/-- `str(member.get("user_id"))`. -/
def strId? : Option (BsonId ObjectId) → String
  | some id => codec.strId id
  | none => "None"

/-- `_user_id_variants`, and `_id_variants` of one id. -/
def variants (s : String) : List (BsonId ObjectId) :=
  .string s :: ((codec.parse s).map BsonId.objectId).toList

end ObjectIdCodec

/-- The collection: an id names one document at most, under the service's own matching. -/
structure WorkspaceCollection (codec : ObjectIdCodec ObjectId) where
  docs : List (WorkspaceDoc ObjectId)
  nodup : docs.Nodup
  single : ∀ s, ∀ d ∈ docs, ∀ d' ∈ docs, d.id ∈ codec.variants s → d'.id ∈ codec.variants s →
    d = d'

namespace WorkspaceDoc

variable (codec : ObjectIdCodec ObjectId)

/-- `str(doc["_id"])`. -/
def key (d : WorkspaceDoc ObjectId) : String := codec.strId d.id

/-- The loop over `members` of `role_in_workspace_doc`: the highest recognised role. -/
def bestRole (userId : String) : List (MemberEntry ObjectId) → Option WorkspaceRole →
    Option WorkspaceRole
  | [], best => best
  | .other :: entries, best => bestRole userId entries best
  | .dict entryUser role :: entries, best =>
    if codec.strId? entryUser ≠ userId then bestRole userId entries best
    else
      match role.bind WorkspaceRole.ofString?, best with
      | none, best => bestRole userId entries best
      | some role, none => bestRole userId entries (some role)
      | some role, some held =>
        bestRole userId entries (some (if role.rank > held.rank then role else held))

/-- `role_in_workspace_doc`. -/
def roleInWorkspaceDoc (d : WorkspaceDoc ObjectId) (userId : String) : Option WorkspaceRole :=
  if d.userId.map codec.strId = some userId then some .owner
  else bestRole codec userId d.members.entries none

/-- The role of the user in the document is in `WRITE_ROLES`. -/
def MayWrite (d : WorkspaceDoc ObjectId) (userId : String) : Prop :=
  (d.roleInWorkspaceDoc codec userId).any WorkspaceRole.mayWrite = true

instance (d : WorkspaceDoc ObjectId) (userId : String) : Decidable (d.MayWrite codec userId) :=
  inferInstanceAs (Decidable (_ = true))

variable [DecidableEq ObjectId]

/-- The document has the user among its `members` elements, with a role that passes. -/
def hasElement (d : WorkspaceDoc ObjectId) (userId : String) (role : Option String → Bool) :
    Bool :=
  d.members.entries.any fun
    | .dict (some entryUser) entryRole => entryUser ∈ codec.variants userId && role entryRole
    | _ => false

/-- `_workspace_access_filter`. -/
def accessFilter (d : WorkspaceDoc ObjectId) (userId : String) : Bool :=
  d.userId.any (· ∈ codec.variants userId) ||
    d.hasElement codec userId fun role => (role.bind WorkspaceRole.ofString?).isSome

/-- The document is returned by the lookup of `get_read_only_workspace_ids_in_mongo`, and its
    id is kept: the user's role is `viewer`. -/
def isReadOnly (d : WorkspaceDoc ObjectId) (userId : String) : Bool :=
  d.hasElement codec userId (fun _ => true) && d.roleInWorkspaceDoc codec userId = some .viewer

end WorkspaceDoc

/-! ## The lookups -/

/-- How the cursor of the listing ends: an error may come after some documents. -/
inductive CursorOutcome where
  | completes
  | raises (afterDocs : Nat)
deriving DecidableEq, Repr

/-- Which calls of one resolution succeed. -/
structure Lookups where
  /-- The `find` of `get_user_workspace_ids`. -/
  listing : CursorOutcome
  /-- The PostgreSQL fallback of `get_user_workspace_ids`. -/
  uploads : Bool
  /-- `_membership_managed_workspace_ids`. -/
  managed : Bool
  /-- `get_read_only_workspace_ids_in_mongo`. -/
  readOnly : Bool
  /-- `get_workspace_role_in_mongo` of the key's own workspace. -/
  role : Bool
  /-- `get_workspace_role_in_mongo` of `viewer_write_denial`. -/
  denialRole : Bool
deriving DecidableEq, Repr

/-- A row of `processed_documents`: who has uploaded to which workspace. -/
structure UploadRow where
  workspaceId : String
  userId : String
deriving DecidableEq, Repr

/-- What authorization is decided on. -/
structure AccessState (codec : ObjectIdCodec ObjectId) where
  workspaces : WorkspaceCollection codec
  uploads : List UploadRow

/-- What a resolution raises: the error of a lookup, or an `HTTPException`. -/
inductive AuthError where
  | lookup
  | http (status : Nat) (detail : String)
deriving DecidableEq, Repr

namespace AccessState

variable [DecidableEq ObjectId] {codec : ObjectIdCodec ObjectId} (state : AccessState codec)

/-- The documents the listing yields before it ends. -/
def listedDocs (listing : CursorOutcome) (userId : String) : List (WorkspaceDoc ObjectId) :=
  let found := state.workspaces.docs.filter fun d => d.accessFilter codec userId
  match listing with
  | .completes => found
  | .raises afterDocs => found.take afterDocs

/-- `SELECT DISTINCT workspace_id FROM processed_documents WHERE user_id = :user_id`. -/
def uploadIds (userId : String) : List String :=
  ((state.uploads.filter fun row => row.userId = userId).map UploadRow.workspaceId).dedup

/-- `_membership_managed_workspace_ids`; it swallows its failure. -/
def membershipManagedWorkspaceIds (managed : Bool) (workspaceIds : List String) : List String :=
  if managed then
    (state.workspaces.docs.filter fun d =>
      d.id ∈ workspaceIds.flatMap codec.variants ∧ d.members.Exists).map (·.key codec)
  else []

/-- `get_user_workspace_ids`.  The result is a list of a set, in any order: callers use its
    members and its length. -/
def getUserWorkspaceIds (lookups : Lookups) (userId : String) : List String :=
  let mongoIds := (state.listedDocs lookups.listing userId).map (·.key codec)
  let pgIds := if lookups.uploads then state.uploadIds userId else []
  let pgOnly := pgIds.filter fun ws => ws ∉ mongoIds
  let pgOnly :=
    if lookups.listing = .completes then
      pgOnly.filter fun ws => ws ∉ state.membershipManagedWorkspaceIds lookups.managed pgOnly
    else pgOnly
  mongoIds ++ pgOnly

/-- `get_workspace_role_in_mongo`. -/
def getWorkspaceRoleInMongo (succeeds : Bool) (userId workspaceId : String) :
    Except AuthError (Option WorkspaceRole) :=
  if succeeds then
    .ok ((state.workspaces.docs.find? fun d =>
      d.id ∈ codec.variants workspaceId ∧ d.accessFilter codec userId = true).bind
        fun d => d.roleInWorkspaceDoc codec userId)
  else .error .lookup

/-- `user_can_access_workspace_in_mongo`. -/
def userCanAccessWorkspaceInMongo (succeeds : Bool) (userId workspaceId : String)
    (write : Bool) : Except AuthError Bool := do
  let role ← state.getWorkspaceRoleInMongo succeeds userId workspaceId
  match role with
  | none => return false
  | some role => return if write then role.mayWrite else true

/-- `get_read_only_workspace_ids_in_mongo`. -/
def getReadOnlyWorkspaceIdsInMongo (succeeds : Bool) (userId : String) :
    Except AuthError (List String) :=
  if succeeds then
    .ok ((state.workspaces.docs.filter fun d => d.isReadOnly codec userId).map (·.key codec))
  else .error .lookup

end AccessState

/-! ## Resolution -/

/-- The fields of `APIKeyInfo` that authorization reads. -/
structure APIKeyInfo where
  keyId : String
  userId : String
  workspaceId : Option String
deriving DecidableEq, Repr

/-- `key_info.workspace_id` when it is truthy: the key is bound to that workspace. -/
def APIKeyInfo.boundWorkspace? (keyInfo : APIKeyInfo) : Option String :=
  keyInfo.workspaceId.filter (· ≠ "")

/-- `ResolvedAuth`. -/
structure ResolvedAuth where
  keyInfo : APIKeyInfo
  workspaceId : Option String
deriving DecidableEq, Repr

/-- The permission a route asks for. -/
inductive AccessPermission where
  | read
  | write
deriving DecidableEq, Repr

section

variable [DecidableEq ObjectId] {codec : ObjectIdCodec ObjectId}

/-- `get_authorized_workspace_ids`. -/
def getAuthorizedWorkspaceIds (state : AccessState codec) (lookups : Lookups)
    (keyInfo : APIKeyInfo) (permission : AccessPermission) : Except AuthError (List String) :=
  let write := permission = .write
  match keyInfo.boundWorkspace? with
  | some bound => do
    let allowed ← state.userCanAccessWorkspaceInMongo lookups.role keyInfo.userId bound write
    return if allowed then [bound] else []
  | none => do
    let workspaceIds := state.getUserWorkspaceIds lookups keyInfo.userId
    if write then
      let readOnly ← state.getReadOnlyWorkspaceIdsInMongo lookups.readOnly keyInfo.userId
      return workspaceIds.filter fun ws => ws ∉ readOnly
    else return workspaceIds

/-- `viewer_write_denial`. -/
def viewerWriteDenial (state : AccessState codec) (lookups : Lookups) (keyInfo : APIKeyInfo)
    (workspaceId : String) : Except AuthError (Option String) := do
  let role ← state.getWorkspaceRoleInMongo lookups.denialRole keyInfo.userId workspaceId
  if role = some .viewer then
    return some (s!"Your role in workspace '{workspaceId}' is 'viewer', which is read-only; " ++
      "write operations require the owner, admin or member role")
  else return none

/-- `describe_workspace_denial`. -/
def describeWorkspaceDenial (keyInfo : APIKeyInfo) (requestedWorkspaceId : String) : String :=
  match keyInfo.boundWorkspace? with
  | some bound => s!"API key is scoped to workspace '{bound}' " ++
      s!"and cannot access workspace '{requestedWorkspaceId}'"
  | none => s!"You don't have access to workspace '{requestedWorkspaceId}'"

/-- The denial of a write names the viewer's role; any other one has the given text. -/
def deny (state : AccessState codec) (lookups : Lookups) (keyInfo : APIKeyInfo)
    (workspaceId : String) (permission : AccessPermission) (detail : String) :
    Except AuthError ResolvedAuth := do
  let viewerDetail ←
    if permission = .write then viewerWriteDenial state lookups keyInfo workspaceId
    else pure none
  throw (.http 403 (viewerDetail.getD detail))

/-- `_resolve_workspace`. -/
def resolveWorkspace (state : AccessState codec) (lookups : Lookups) (keyInfo : APIKeyInfo)
    (headerWorkspaceId : Option String) (required : Bool) (permission : AccessPermission) :
    Except AuthError ResolvedAuth := do
  let authorized ← getAuthorizedWorkspaceIds state lookups keyInfo permission
  match keyInfo.boundWorkspace? with
  | some bound =>
    if headerWorkspaceId ≠ none ∧ headerWorkspaceId ≠ some bound then
      throw (.http 403 (describeWorkspaceDenial keyInfo (headerWorkspaceId.getD "")))
    else if bound ∉ authorized then
      deny state lookups keyInfo bound permission
        s!"API key is scoped to workspace '{bound}', which is no longer accessible"
    else return { keyInfo, workspaceId := some bound }
  | none =>
    match headerWorkspaceId.filter (· ≠ "") with
    | some workspaceId =>
      if workspaceId ∈ authorized then return { keyInfo, workspaceId := some workspaceId }
      else
        deny state lookups keyInfo workspaceId permission
          (describeWorkspaceDenial keyInfo workspaceId)
    | none =>
      if required then
        match authorized with
        | [] => throw (.http 400 "No workspaces found. Provide X-Workspace-Id header.")
        | [workspaceId] => return { keyInfo, workspaceId := some workspaceId }
        | _ :: _ :: _ =>
          throw (.http 400 ("Multiple workspaces found. Provide X-Workspace-Id header " ++
            "to specify which workspace to use."))
      else
        match authorized with
        | [workspaceId] => return { keyInfo, workspaceId := some workspaceId }
        | _ => return { keyInfo, workspaceId := none }

end

end Inherent
