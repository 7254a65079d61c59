import Mathlib

/-!
# `resolve_oauth_user`

The identity link of OAuth callers: `resolve_oauth_user`
(`src/services/inh-public-api-svc/src/services/auth.py`) over `find_users_by_subject`
(`src/services/database.py`).  The values of documents and their text are parameters; the
settings only name plain fields (`_validate_oauth_subject_lookup`).
-/

namespace Inherent.OauthIdentity

/-! ## Settings and claims -/

/-- The settings that the identity link reads. -/
structure IdentitySettings where
  oauthUserIdClaim : Option String := none
  oauthSubjectLookupCollection : Option String := none
  oauthSubjectLookupField : Option String := none
  oauthSubjectLookupIdField : String := "_id"
  oauthSubjectLookupDeletedField : String := "deleted_at"
  oauthSubjectUsers : List (String × String) := []
  deriving DecidableEq, Repr

/-- `oauth_subject_lookup_enabled`. -/
def IdentitySettings.oauthSubjectLookupEnabled (settings : IdentitySettings) : Bool :=
  settings.oauthSubjectLookupCollection.any (· ≠ "") &&
    settings.oauthSubjectLookupField.any (· ≠ "")

/-- The value of a claim: a string, or one that is none. -/
inductive ClaimValue where
  | text (value : String)
  | other
  deriving DecidableEq, Repr

/-- `OAuthClaims`. -/
structure OAuthClaims where
  subject : String
  raw : List (String × ClaimValue) := []
  deriving DecidableEq, Repr

/-- Step 1: the non-empty string under the claim that the settings name. -/
def userIdClaim (settings : IdentitySettings) (claims : OAuthClaims) : Option String := do
  let name ← settings.oauthUserIdClaim.filter (· ≠ "")
  match claims.raw.lookup name with
  | some (.text value) => if value ≠ "" then some value else none
  | _ => none

/-! ## User documents -/

/-- A document by its fields; a field that is missing or null is `none`. -/
abbrev UserDocument (V : Type) := String → Option V

/-- The database: `str(value)`, the values that a query for a string finds, and the documents of a
    collection in the order in which a cursor gives them. -/
structure UserDatabase (V : Type) where
  str : V → String
  equalsText : V → String → Bool
  documents : String → Except String (List (UserDocument V))

variable {V : Type}

/-- `collection.find({field: subject})`. -/
def UserDatabase.find (db : UserDatabase V) (collection field subject : String) :
    Except String (List (UserDocument V)) := do
  let documents ← db.documents collection
  return documents.filter fun doc => (doc field).any (db.equalsText · subject)

/-- The documents that match the subject of a lookup. -/
def matching (settings : IdentitySettings) (db : UserDatabase V) (subject : String) :
    Except String (List (UserDocument V)) :=
  db.find (settings.oauthSubjectLookupCollection.getD "")
    (settings.oauthSubjectLookupField.getD "") subject

/-- `raw_id is not None`. -/
def hasId (settings : IdentitySettings) (doc : UserDocument V) : Bool :=
  (doc settings.oauthSubjectLookupIdField).isSome

/-- `is_deleted`. -/
def isDeleted (settings : IdentitySettings) (doc : UserDocument V) : Bool :=
  decide (settings.oauthSubjectLookupDeletedField ≠ "") &&
    (doc settings.oauthSubjectLookupDeletedField).isSome

/-- `find_users_by_subject`. -/
def findUsersBySubject (settings : IdentitySettings) (db : UserDatabase V) (subject : String) :
    Except String (List (String × Bool)) := do
  let found ← matching settings db subject
  return (found.take 10).filterMap fun doc =>
    (doc settings.oauthSubjectLookupIdField).map fun rawId =>
      (db.str rawId, isDeleted settings doc)

/-! ## Resolution -/

/-- The step that ends `resolve_oauth_user`. -/
inductive IdentityStep where
  | userIdClaim (userId : String)
  | lookedUp (userId : String)
  | unresolved
  | staticMap (userId : Option String)
  deriving DecidableEq, Repr

/-- What `resolve_oauth_user` returns. -/
def IdentityStep.userId : IdentityStep → Option String
  | .userIdClaim userId => some userId
  | .lookedUp userId => some userId
  | .unresolved => none
  | .staticMap userId => userId

/-- `OAuthIdentityLookupError`. -/
inductive IdentityError where
  | lookupFailed
  deriving DecidableEq, Repr

/-- What the matches of the lookup decide. -/
def decideMatches (settings : IdentitySettings) (subject : String)
    (found : List (String × Bool)) : IdentityStep :=
  let live := (found.filter fun entry => !entry.2).map Prod.fst
  match live with
  | [userId] => .lookedUp userId
  | _ :: _ :: _ => .unresolved
  | [] =>
    if found ≠ [] then .unresolved
    else .staticMap (settings.oauthSubjectUsers.lookup subject)

/-- `resolve_oauth_user`, with the step that decides. -/
def resolveOauthUser (settings : IdentitySettings) (db : UserDatabase V) (claims : OAuthClaims) :
    Except IdentityError IdentityStep :=
  match userIdClaim settings claims with
  | some value => .ok (.userIdClaim value)
  | none =>
    if settings.oauthSubjectLookupEnabled then
      match findUsersBySubject settings db claims.subject with
      | .error _ => .error .lookupFailed
      | .ok found => .ok (decideMatches settings claims.subject found)
    else .ok (.staticMap (settings.oauthSubjectUsers.lookup claims.subject))

end Inherent.OauthIdentity
