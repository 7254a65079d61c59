import Inherent.Native.McpTools

/-!
# The dispatch of an MCP call

The three dispatchers of a tool call, of stdio, of an API key over HTTP and of an OAuth token
over HTTP (`src/services/inh-public-api-svc/src/mcp_server/server.py`, `http_transport.py`),
and the audit events that they publish (`audit.py`).
-/

namespace Inherent

/-! ## Audit events -/

/-- `Outcome`. -/
inductive AuditOutcome where
  | ok
  | error
  | denied
  deriving DecidableEq, Repr

/-- The credential behind a call. -/
inductive PrincipalType where
  | apiKey
  | oauth
  deriving DecidableEq, Repr

/-- The audit event of a tool call; the values that are the same for every call, and the
    times, are left out. -/
structure AuditEvent where
  toolName : String
  outcome : AuditOutcome
  principalType : PrincipalType
  principalId : String
  userId : String
  apiKeyId : String
  queryText : String
  resultCount : Nat
  returnedChunkIds : List String
  workspaceId : String
  workspaceIds : List String
  deriving DecidableEq, Repr

/-- `_query_text`. -/
def auditQueryText (arguments : ToolArguments) : String :=
  if arguments.query ≠ "" then arguments.query
  else if arguments.documentId ≠ "" then "document_id=" ++ arguments.documentId
  else ""

/-- `MAX_QUERY_TEXT_LENGTH`. -/
def maxQueryTextLength : Nat := 2000

/-- The event that `_publish` builds. -/
def publishedEvent (toolName : String) (arguments : ToolArguments) (outcome : AuditOutcome)
    (principal : PrincipalType × String) (userId apiKeyId : String)
    (chunkIds workspaceIds : List String) : AuditEvent where
  toolName := toolName
  outcome := outcome
  principalType := principal.1
  principalId := principal.2
  userId := userId
  apiKeyId := apiKeyId
  queryText := String.ofList ((auditQueryText arguments).toList.take maxQueryTextLength)
  resultCount := chunkIds.length
  returnedChunkIds := chunkIds
  workspaceId := workspaceIds.headD "unknown"
  workspaceIds := workspaceIds

/-- `_principal_from_key_info`. -/
def principalFromKeyInfo (keyInfo : McpKeyInfo) : PrincipalType × String :=
  if "oauth:".toList.isPrefixOf keyInfo.keyId.toList then
    (.oauth, String.ofList (keyInfo.keyId.toList.drop "oauth:".length))
  else (.apiKey, keyInfo.keyId)

/-- The event of a call under an identity. -/
def McpKeyInfo.auditEvent (keyInfo : McpKeyInfo) (name : String) (arguments : ToolArguments)
    (outcome : AuditOutcome) (chunkIds workspaceIds : List String) : AuditEvent :=
  publishedEvent name arguments outcome (principalFromKeyInfo keyInfo) keyInfo.userId
    keyInfo.keyId chunkIds workspaceIds

/-- `audit_denied`. -/
def auditDenied (tool : ToolDef) (name : String) (keyInfo : McpKeyInfo)
    (arguments : ToolArguments) : List AuditEvent :=
  if tool.returnsChunkContent then [keyInfo.auditEvent name arguments .denied [] []] else []

/-- `audit_denied_unresolved_oauth`. -/
def auditDeniedUnresolvedOauth (tool : ToolDef) (name principalId : String)
    (arguments : ToolArguments) : List AuditEvent :=
  if tool.returnsChunkContent then
    [publishedEvent name arguments .denied (.oauth, principalId) "unknown"
      ("oauth:" ++ principalId) [] []]
  else []

/-- The context variables of an audited dispatch before its handler runs. -/
def AuditVars.fresh : AuditVars where
  returnedChunkIds := some []
  reportedWorkspaceIds := some []

/-- How a handler ends and what it leaves in the context variables. -/
def ToolDef.runHandler (tool : ToolDef) (keyInfo : McpKeyInfo) (arguments : ToolArguments) :
    Except Interruption (List ToolText) × AuditVars :=
  (tool.handler keyInfo arguments).run.run
    (if tool.returnsChunkContent then .fresh else {})

/-- `bool(content) and content[0].text.startswith("Error:")`. -/
def reportsError (services : ToolServices) (content : List ToolText) : Bool :=
  match content with
  | [] => false
  | first :: _ => startsWithError (first.text services)

/-- `dispatch_and_audit`: the events of the call.  What the handler returns or raises goes on
    unchanged. -/
def dispatchAndAudit (services : ToolServices) (tool : ToolDef) (name : String)
    (keyInfo : McpKeyInfo) (arguments : ToolArguments) : List AuditEvent :=
  if tool.returnsChunkContent then
    match tool.runHandler keyInfo arguments with
    | (.error (.exception _), vars) =>
      [keyInfo.auditEvent name arguments .error [] (vars.reportedWorkspaceIds.getD [])]
    -- `except Exception` does not catch a cancellation
    | (.error .cancelled, _) => []
    | (.ok content, vars) =>
      let isError := reportsError services content
      [keyInfo.auditEvent name arguments (if isError then .error else .ok)
        (if isError then [] else vars.returnedChunkIds.getD [])
        (vars.reportedWorkspaceIds.getD [])]
  else []

/-! ## Responses -/

/-- The failure classes of the HTTP transport. -/
inductive FailureClass where
  | authentication
  | authorization
  | validation
  | unknownTool
  | notFound
  | internal
  | toolError
  | quotaExceeded
  deriving DecidableEq, Repr

def FailureClass.value : FailureClass → String
  | .authentication => "authentication_failed"
  | .authorization => "authorization_failed"
  | .validation => "validation_error"
  | .unknownTool => "unknown_tool"
  | .notFound => "not_found"
  | .internal => "internal_error"
  | .toolError => "tool_error"
  | .quotaExceeded => "quota_exceeded"

/-- `QuotaDenial`. -/
structure QuotaDenial where
  limitName : String
  limit : Nat
  resetAt : Option Timestamp
  upgradeUrl : Option String
  deriving DecidableEq, Repr

/-- The `structuredContent` of a failure. -/
inductive StructuredError where
  | failure (errorClass : FailureClass)
  /-- `"error": "insufficient_scope"` with the scope, of the class `authorization_failed`. -/
  | insufficientScope (scope : String)
  /-- Of the class `quota_exceeded`. -/
  | quota (denial : QuotaDenial)
  deriving DecidableEq, Repr

/-- The response of a call: a `CallToolResult`, or the bare content on stdio. -/
structure ToolResponse where
  content : List ToolText
  structuredContent : Option StructuredError := none
  isError : Bool := false
  deriving DecidableEq

/-- `_error_result`. -/
def errorResult (text : String) (failureClass : FailureClass) : ToolResponse where
  content := [.plain text]
  structuredContent := some (.failure failureClass)
  isError := true

/-- `_quota_exceeded_result`. -/
def quotaExceededResult (services : ToolServices) (denial : QuotaDenial) : ToolResponse where
  content := [.plain ("Error: '" ++ denial.limitName ++ "' limit exceeded (limit: " ++
    toString denial.limit ++ ")" ++
    (match denial.resetAt with
      | none => ""
      | some resetAt => "; resets at " ++ services.isoformat resetAt) ++
    (match denial.upgradeUrl.filter (· ≠ "") with
      | none => ""
      | some upgradeUrl => ". Raise this limit: " ++ upgradeUrl))]
  structuredContent := some (.quota denial)
  isError := true

/-- `_classify_handler_error`. -/
def classifyHandlerError (services : ToolServices) (text : String) : FailureClass :=
  let has (part : String) : Bool := decide (part.toList <:+: (services.lower text).toList)
  if has "not found" then .notFound
  else if has "does not have" || has "scoped to workspace" || has "don't have access" ||
      has "no longer accessible" then .authorization
  else if has "required" || has "must be" || has "cannot be empty" then .validation
  else .toolError

/-- What the HTTP dispatchers make of the content of a handler. -/
def handledResult (services : ToolServices) (content : List ToolText) : ToolResponse :=
  match content with
  | [] => { content }
  | first :: _ =>
    if startsWithError (first.text services) then
      errorResult (first.text services) (classifyHandlerError services (first.text services))
    else { content }

/-! ## Identities -/

/-- `Principal` of an OAuth token. -/
structure OAuthPrincipal where
  principalId : String
  scopes : List String
  resolvedUserId : Option String
  deriving DecidableEq, Repr

/-- `PERMISSION_SCOPE_MAP.get(permission, permission)`. -/
def requiredScope (permission : String) : String :=
  match permission with
  | "read" => "kb:read"
  | "search" => "kb:search"
  | "write" => "kb:write"
  | _ => permission

/-- `permissions_from_scopes`. -/
def permissionsFromScopes (scopes : List String) : List String :=
  ["read", "search", "write"].filter fun permission => requiredScope permission ∈ scopes

/-- `_api_key_info_for_oauth`, when the token's subject is linked to a user. -/
def OAuthPrincipal.keyInfo? (principal : OAuthPrincipal) : Option McpKeyInfo :=
  (principal.resolvedUserId.filter (· ≠ "")).map fun userId =>
    { keyId := "oauth:" ++ principal.principalId
      userId := userId
      workspaceId := none
      permissions := permissionsFromScopes principal.scopes }

/-- The events of a denial of an OAuth caller. -/
def OAuthPrincipal.auditDenied (principal : OAuthPrincipal) (tool : ToolDef) (name : String)
    (arguments : ToolArguments) : List AuditEvent :=
  match principal.keyInfo? with
  | some keyInfo => Inherent.auditDenied tool name keyInfo arguments
  | none => auditDeniedUnresolvedOauth tool name principal.principalId arguments

/-! ## The dispatchers -/

/-- What `check_quota` comes to: it lets a call through when a service behind it fails. -/
inductive QuotaOutcome where
  | allowed
  | exceeded (denial : QuotaDenial)
  | cancelled
  deriving DecidableEq, Repr

/-- A call: how its handler ended, if it ran; its response, which a cancelled call does not
    have; and its audit events. -/
structure CallReport where
  handled : Option (Except Interruption (List ToolText)) := none
  response : Option ToolResponse
  events : List AuditEvent := []

/-- A call that ends without its handler. -/
def CallReport.refused (response : ToolResponse) (events : List AuditEvent := []) :
    CallReport where
  response := some response
  events := events

/-- A text of the stdio dispatcher. -/
def stdioText (text : String) : ToolResponse where
  content := [.plain text]

/-- The text of a tool that is not found, on either transport. -/
def unknownToolText (name : String) : String := "Error: Unknown tool '" ++ name ++ "'"

/-- `call_tool` of stdio. -/
def callToolStdio (services : ToolServices) (now : Timestamp) (name : String)
    (arguments : ToolArguments) : CallReport :=
  if arguments.apiKey = "" then .refused (stdioText "Error: API key is required")
  else
    match services.validateApiKey arguments.apiKey with
    | .error (.exception message) => .refused (stdioText ("Error: " ++ message))
    | .error .cancelled => { response := none }
    | .ok none => .refused (stdioText "Error: Invalid or expired API key")
    | .ok (some keyInfo) =>
      if keyInfo.IsExpired now then .refused (stdioText "Error: API key has expired")
      else
        match toolNamed services name with
        | none => .refused (stdioText (unknownToolText name))
        | some tool =>
          if ¬ keyInfo.HasPermission tool.permission then
            .refused (stdioText ("Error: API key does not have '" ++ tool.permission ++
              "' permission")) (auditDenied tool name keyInfo arguments)
          else
            let handled := (tool.runHandler keyInfo arguments).1
            { handled := some handled
              response := match handled with
                | .ok content => some { content }
                | .error (.exception message) => some (stdioText ("Error: " ++ message))
                | .error .cancelled => none
              events := dispatchAndAudit services tool name keyInfo arguments }

/-- The dispatch of an HTTP call that has passed its checks. -/
def dispatchHttp (services : ToolServices) (tool : ToolDef) (name : String)
    (keyInfo : McpKeyInfo) (arguments : ToolArguments) : CallReport :=
  let handled := (tool.runHandler keyInfo arguments).1
  { handled := some handled
    response := match handled with
      | .ok content => some (handledResult services content)
      | .error (.exception message) => some (errorResult ("Error: " ++ message) .internal)
      | .error .cancelled => none
    events := dispatchAndAudit services tool name keyInfo arguments }

/-- `call_tool` of HTTP for an API key. -/
def callToolHttpKey (services : ToolServices) (keyInfo : McpKeyInfo) (name : String)
    (arguments : ToolArguments) (quota : QuotaOutcome) : CallReport :=
  match (httpToolNamed services name).or (profileToolNamed services keyInfo name) with
  | none => .refused (errorResult (unknownToolText name) .unknownTool)
  | some tool =>
    if ¬ keyInfo.HasPermission tool.permission then
      .refused (errorResult ("Error: API key does not have '" ++ tool.permission ++
        "' permission") .authorization) (auditDenied tool name keyInfo arguments)
    else
      match quota with
      | .exceeded denial =>
        .refused (quotaExceededResult services denial) (auditDenied tool name keyInfo arguments)
      | .cancelled => { response := none }
      | .allowed => dispatchHttp services tool name keyInfo arguments

/-- The text for a token whose subject is linked to no user. -/
def unlinkedText : String :=
  "Error: no Inherent identity is linked to this token's subject -- " ++
  "set OAUTH_USER_ID_CLAIM or OAUTH_SUBJECT_USERS to link OAuth " ++
  "callers to an Inherent user (see docs/reference/mcp-tools.md's " ++
  "'Connecting claude.ai' section)"

/-- `_call_tool_oauth`. -/
def callToolOauth (services : ToolServices) (principal : OAuthPrincipal) (name : String)
    (arguments : ToolArguments) (quota : QuotaOutcome) : CallReport :=
  let profileTool := principal.keyInfo?.bind fun keyInfo =>
    profileToolNamed services keyInfo name
  match (httpToolNamed services name).or profileTool with
  | none => .refused (errorResult (unknownToolText name) .unknownTool)
  | some tool =>
    if requiredScope tool.permission ∉ principal.scopes then
      .refused
        { content := [.plain ("Error: token missing required scope '" ++
            requiredScope tool.permission ++ "'")]
          structuredContent := some (.insufficientScope (requiredScope tool.permission))
          isError := true }
        (principal.auditDenied tool name arguments)
    else
      match quota with
      | .exceeded denial =>
        .refused (quotaExceededResult services denial) (principal.auditDenied tool name arguments)
      | .cancelled => { response := none }
      | .allowed =>
        match principal.keyInfo? with
        | none =>
          .refused (errorResult unlinkedText .authentication)
            (auditDeniedUnresolvedOauth tool name principal.principalId arguments)
        | some keyInfo => dispatchHttp services tool name keyInfo arguments

/-- Who calls: over stdio the key is an argument, and over HTTP it is the context variables
    `_current_key_info` and `_current_oauth_principal`. -/
inductive McpCaller where
  | stdio
  | http (keyInfo : Option McpKeyInfo) (principal : Option OAuthPrincipal)
  deriving DecidableEq, Repr

/-- `call_tool`. -/
def callTool (services : ToolServices) (now : Timestamp) (caller : McpCaller) (name : String)
    (arguments : ToolArguments) (quota : QuotaOutcome) : CallReport :=
  match caller with
  | .stdio => callToolStdio services now name arguments
  | .http (some keyInfo) _ => callToolHttpKey services keyInfo name arguments quota
  | .http none (some principal) => callToolOauth services principal name arguments quota
  | .http none none =>
    .refused (errorResult "Error: authentication context missing" .authentication)

end Inherent
