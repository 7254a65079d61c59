import Inherent.ForStd.DotSegments
import Inherent.Native.PyLines

/-!
# Storage paths

`require_storage_path_workspace_prefix` (`src/services/inh-ingestion-svc/src/api/ownership.py`),
and where the storage service (`src/services/storage.py`) looks for the object of a path.  The
directories have no symbolic links, and are lists of names with the deepest one first.
-/

namespace Inherent.StoragePath

/-! ## Segments -/

/-- A segment that `normpath` and `resolve` drop. -/
def here (s : List Char) : Bool := s == [] || s == ['.']

/-- `..`. -/
def up (s : List Char) : Bool := s == ['.', '.']

/-- A directory: the names from the deepest one to the root. -/
abbrev Directory := List (List Char)

/-- The segments of `posixpath.normpath(path)` for a path that does not start with a slash, the
    last one first. -/
def reduced (path : List Char) : List (List Char) := DotSegments.relative here up (path.splitOn '/')

/-- `posixpath.normpath(path)` for a path that does not start with a slash. -/
def normpath (path : List Char) : List Char :=
  if reduced path = [] then ['.'] else PyStr.join ['/'] (reduced path).reverse

/-! ## The check -/

/-- The `HTTPException` of the check. -/
inductive AccessError where
  | blankWorkspaceId
  | storagePathMismatch (workspaceId : List Char)
  deriving DecidableEq, Repr

/-- `status_code`. -/
def AccessError.statusCode : AccessError → Nat
  | .blankWorkspaceId => 422
  | .storagePathMismatch _ => 403

/-- `require_workspace_id`. -/
def requireWorkspaceId (workspaceId : List Char) : Except AccessError (List Char) :=
  let stripped := PyStr.strip workspaceId
  if stripped = [] then .error .blankWorkspaceId else .ok stripped

/-- `"workspaces"`. -/
def workspacesSegment : List Char := "workspaces".toList

/-- The first segment behind an optional `workspaces`. -/
def prefixSegment (segments : List (List Char)) : Option (List Char) :=
  if segments.head? = some workspacesSegment then segments.tail.head? else segments.head?

/-- `require_storage_path_workspace_prefix`. -/
def requireStoragePathWorkspacePrefix (storagePath workspaceId : List Char) :
    Except AccessError (List Char) := do
  let workspaceId ← requireWorkspaceId workspaceId
  let normalized := normpath ((PyStr.strip storagePath).dropWhile (· == '/'))
  let segments := if normalized = [] ∨ normalized = ['.'] then [] else normalized.splitOn '/'
  if prefixSegment segments ≠ some workspaceId then throw (.storagePathMismatch workspaceId)
  return workspaceId

/-! ## The readers -/

/-- The backends: only these two are ever connected. -/
inductive StorageBackend where
  | localFiles
  | s3
  | other (name : String)
  deriving DecidableEq, Repr

/-- What a reader raises before it looks for an object. -/
inductive StorageError where
  | backendNotAvailable
  | noBucket
  | embeddedNull
  | pathTraversal
  deriving DecidableEq, Repr

/-- The settings of the storage service: `_base_path`, a resolved directory, whether the S3 backend
    is connected, and its default bucket. -/
structure StorageSettings where
  basePath : Directory
  basePath_names : ∀ s ∈ basePath, here s = false ∧ up s = false
  s3Connected : Bool := true
  storageBucket : List Char := []

/-- The object that is read: a key, or a file. -/
inductive Location where
  | key (key : List Char)
  | file (path : Directory)
  deriving DecidableEq, Repr

/-- `path.startswith("/")`. -/
def isAbsolute (path : List Char) : Bool := path.head? == some '/'

/-- `(dir / path).resolve()`: an absolute path replaces the directory. -/
def joinPath (dir : Directory) (path : List Char) : Directory :=
  DotSegments.walk here up (if isAbsolute path then [] else dir) (path.splitOn '/')

/-- The directory of a bucket; an empty one is none. -/
def StorageSettings.root (settings : StorageSettings) (bucket : List Char) : Directory :=
  if bucket = [] then settings.basePath else joinPath settings.basePath bucket

/-- `LocalStorageBackend._resolve`. -/
def resolve (settings : StorageSettings) (bucket path : List Char) :
    Except StorageError Directory := do
  if '\x00' ∈ path ∨ isAbsolute path = false ∧ '\x00' ∈ bucket then throw .embeddedNull
  let resolved := joinPath (settings.root bucket) path
  if resolved ≠ settings.basePath ∧ ¬ settings.basePath <:+ resolved then throw .pathTraversal
  return resolved

/-- Where `StorageService.read_file` looks for the object of a path. -/
def locate (settings : StorageSettings) (backend : StorageBackend) (bucket path : List Char) :
    Except StorageError Location :=
  match backend with
  | .localFiles => (resolve settings bucket path).map .file
  | .s3 =>
    if settings.s3Connected = false then .error .backendNotAvailable
    else if bucket = [] ∧ settings.storageBucket = [] then .error .noBucket
    else .ok (.key path)
  | .other _ => .error .backendNotAvailable

example : requireStoragePathWorkspacePrefix " /workspaces/./a/../ws1/f.pdf".toList "ws1".toList =
    .ok "ws1".toList := by
  rfl

end Inherent.StoragePath
