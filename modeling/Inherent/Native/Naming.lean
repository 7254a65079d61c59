import Inherent.ForStd.Base32

/-!
# Weaviate names

`inh_contracts/naming.py`: the names of collections and tenants, which both services derive
from the raw ids of workspaces and users.  A raw id is a text that UTF-8 can encode, as
`str.encode` raises for any other.
-/

namespace Inherent

/-- `WORKSPACE_COLLECTION_PREFIX`. -/
def workspaceCollectionPrefix : String := "Workspace_"

/-- `USER_TENANT_PREFIX`. -/
def userTenantPrefix : String := "User_"

/-- `_encode_id`: base32 of the UTF-8 bytes, with `.rstrip("=")`. -/
def encodeId (rawId : String) : String :=
  String.ofList ((Base32.encode rawId.toUTF8.data.toList).rdropWhile (· == '='))

/-- `get_workspace_collection_name`. -/
def getWorkspaceCollectionName (workspaceId : String) : String :=
  workspaceCollectionPrefix ++ encodeId workspaceId

/-- `get_user_tenant_name`. -/
def getUserTenantName (userId : String) : String :=
  userTenantPrefix ++ encodeId userId

-- the golden names of the module's docstring
example : getWorkspaceCollectionName "ws-123" = "Workspace_O5ZS2MJSGM" := by decide
example : getUserTenantName "user_001" = "User_OVZWK4S7GAYDC" := by decide

end Inherent
