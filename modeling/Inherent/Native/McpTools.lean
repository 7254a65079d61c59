import Inherent.Native.Document
import Inherent.Native.DocumentContext
import Inherent.Native.WorkspaceAccess

/-!
# The MCP tools

The registry of the tools and the handlers of those that return chunk content
(`src/services/inh-public-api-svc/src/mcp_server/server.py`, `tool_profiles.py`), with the
context variables in which they report what they return (`audit.py`).  The services that a
handler awaits are parameters; each call may raise, or be cancelled.
-/

namespace Inherent

/-! ## What a handler is given -/

/-- An `APIKeyInfo` with its grants. -/
structure McpKeyInfo extends APIKeyInfo where
  permissions : List String
  expiresAt : Option Timestamp := none
  deriving DecidableEq, Repr

namespace McpKeyInfo

/-- `has_permission`. -/
def HasPermission (keyInfo : McpKeyInfo) (permission : String) : Prop :=
  permission ∈ keyInfo.permissions

instance (keyInfo : McpKeyInfo) (permission : String) :
    Decidable (keyInfo.HasPermission permission) :=
  inferInstanceAs (Decidable (_ ∈ _))

/-- `is_expired`. -/
def IsExpired (keyInfo : McpKeyInfo) (now : Timestamp) : Prop :=
  ∃ expiresAt ∈ keyInfo.expiresAt, expiresAt < now

instance (keyInfo : McpKeyInfo) (now : Timestamp) : Decidable (keyInfo.IsExpired now) :=
  inferInstanceAs (Decidable (∃ expiresAt ∈ keyInfo.expiresAt, _))

end McpKeyInfo

/-- The arguments of a call that the handlers read: a text that is missing is empty, and a
    number that is missing or that `int` rejects is `none`. -/
structure ToolArguments where
  apiKey : String := ""
  query : String := ""
  workspaceId : String := ""
  documentId : String := ""
  limit : Option Int := none
  maxChars : Option Int := none
  offset : Option Int := none
  minScore : Option ℚ := none
  documentIds : Option (List String) := none
  searchMode : Option String := none
  alpha : Option ℚ := none
  /-- `filters`. -/
  filters : List (String × String) := []
  /-- The other arguments, which a profile tool may filter by. -/
  fields : List (String × String) := []
  deriving DecidableEq, Repr

/-- A `SearchRequest` as the tools build it. -/
structure ToolSearchRequest where
  query : String
  limit : Nat
  minScore : ℚ := 0
  documentIds : Option (List String) := none
  filters : List (String × String) := []
  searchMode : String := "semantic"
  alpha : Option ℚ := none
  deriving DecidableEq, Repr

/-- `build_search_request`: `none` when the model rejects the parameters. -/
def buildSearchRequest (arguments : ToolArguments) : Option ToolSearchRequest :=
  let limit := arguments.limit.getD 10
  let minScore := arguments.minScore.getD 0
  let searchMode := arguments.searchMode.getD "semantic"
  if 1 ≤ arguments.query.length ∧ arguments.query.length ≤ 1000 ∧ 1 ≤ limit ∧ limit ≤ 100 ∧
      0 ≤ minScore ∧ minScore ≤ 1 ∧ searchMode ∈ ["semantic", "hybrid", "keyword"] ∧
      ∀ alpha ∈ arguments.alpha, 0 ≤ alpha ∧ alpha ≤ 1 then
    some
      { query := arguments.query
        limit := limit.toNat
        minScore := minScore
        documentIds := arguments.documentIds
        filters := arguments.filters
        searchMode := searchMode
        alpha := arguments.alpha }
  else none

/-! ## What a handler returns -/

/-- A `Citation`. -/
structure Citation where
  chunkId : String
  documentId : String
  documentName : String
  content : String
  score : ℚ
  deriving DecidableEq, Repr

/-- A `SearchResult`: what the tools read of it. -/
structure ToolSearchResult where
  chunkId : String
  documentId : String
  documentName : String
  content : String
  score : ℚ
  sectionHeading : String := ""
  citation : Option Citation := none
  deriving DecidableEq, Repr

/-- The JSON block of a result; an entry of it stands for the dict that shows a result, a
    citation or a chunk. -/
inductive ToolPayload where
  | search (query : String) (results : List (String × ToolSearchResult))
      (workspacesSearched : List String) (eventId : Option String)
  | citations (query : String) (citations : List (String × Citation))
      (workspacesSearched : List String)
  | context (documentId : String) (window : ContextWindow)
  | chunks (chunks : List PublicChunk)
  | profile (query : String) (results : List ToolSearchResult) (workspaceId : String)
  deriving DecidableEq

/-- A `TextContent`: a text, or a summary with a JSON block (`_structured`). -/
inductive ToolText where
  | plain (text : String)
  | structured (summary : String) (payload : ToolPayload)
  deriving DecidableEq

/-- What ends an `await` other than a value. -/
inductive Interruption where
  | exception (message : String)
  /-- `CancelledError`, which is no `Exception`. -/
  | cancelled
  deriving DecidableEq, Repr

/-! ## The context variables -/

/-- `_returned_chunk_ids` and `_reported_workspace_ids`, `none` outside of an audited
    dispatch. -/
structure AuditVars where
  returnedChunkIds : Option (List String) := none
  reportedWorkspaceIds : Option (List String) := none
  deriving DecidableEq, Repr

/-- A run of a handler: it may write the context variables before it returns or is
    interrupted. -/
abbrev ToolM := ExceptT Interruption (StateM AuditVars)

/-- `record_returned_chunk_ids`. -/
def recordReturnedChunkIds (chunkIds : List String) : ToolM Unit :=
  modify fun vars => { vars with returnedChunkIds := vars.returnedChunkIds.map fun _ => chunkIds }

/-- `record_workspace_ids`. -/
def recordWorkspaceIds (workspaceIds : List String) : ToolM Unit :=
  modify fun vars =>
    { vars with reportedWorkspaceIds := vars.reportedWorkspaceIds.map fun _ => workspaceIds }

abbrev ToolHandler := McpKeyInfo → ToolArguments → ToolM (List ToolText)

/-- `ToolDef`: the description and the schema are left out. -/
structure ToolDef where
  permission : String
  handler : ToolHandler
  httpExposed : Bool := true
  returnsChunkContent : Bool := false

/-! ## The services -/

/-- What a search comes to. -/
inductive SearchAnswer where
  | results (results : List ToolSearchResult)
  | tagFilterError (message : String)
  | interrupted (cause : Interruption)
  deriving DecidableEq

/-- What the tools read of a document. -/
structure ToolDocument where
  id : String
  name : String
  sourceType : String
  sizeBytes : Nat
  workspaceId : String
  deriving DecidableEq, Repr

/-- A tool profile of a vertical pack. -/
structure ToolProfile where
  name : String
  filters : List String
  defaultLimit : Int
  maxLimit : Int
  deriving DecidableEq, Repr

/-- The services behind the handlers. -/
structure ToolServices where
  /-- `validate_api_key`. -/
  validateApiKey : String → Except Interruption (Option McpKeyInfo)
  /-- `get_authorized_workspace_ids`. -/
  authorizedWorkspaceIds : McpKeyInfo → Except Interruption (List String)
  /-- `data_plane_user_id` of a workspace and the caller. -/
  dataPlaneUserId : String → String → Except Interruption String
  /-- `SearchService.search` of a workspace, its tenant and a request. -/
  search : String → String → ToolSearchRequest → SearchAnswer
  /-- The capture of a search in a workspace: its event, if there is one. -/
  captureSearchEvent : String → Except Interruption (Option String)
  /-- `get_document_by_id`. -/
  documentById : String → Except Interruption (Option ToolDocument)
  /-- `get_document_chunks_by_doc_id`. -/
  chunksByDocId : String → Except Interruption (List PublicChunk)
  /-- `resolve_effective_pack`: the workspace and the profiles of its pack; an error gives
      none. -/
  effectivePack : McpKeyInfo → Option (String × List ToolProfile)
  /-- The handlers of the tools that return no chunk content. -/
  otherHandler : String → ToolHandler
  /-- The text of the error that a rejected search request raises. -/
  validationError : ToolArguments → String
  /-- A score with two decimals. -/
  formatScore : ℚ → String
  /-- A number with separators between its thousands. -/
  formatSize : Nat → String
  /-- A time in the ISO format. -/
  isoformat : Timestamp → String
  /-- `str.lower`. -/
  lower : String → String
  /-- `json.dumps` of a payload under `"structured"`. -/
  dumps : ToolPayload → String

/-- The text of a content. -/
def ToolText.text (services : ToolServices) : ToolText → String
  | .plain text => text
  | .structured summary payload =>
    summary ++ "\n\n```json\n" ++ services.dumps payload ++ "\n```"

/-- `text.startswith("Error:")`. -/
def startsWithError (text : String) : Bool := "Error:".toList.isPrefixOf text.toList

/-- `text.rstrip()`. -/
def rstripText (text : String) : String := String.ofList (PyStr.rstrip text.toList)

/-! ## Retrieval -/

/-- `_get_workspace_ids` of a reading tool: the workspaces, or an error text. -/
def getWorkspaceIds (services : ToolServices) (keyInfo : McpKeyInfo)
    (requestedWorkspaceId : String) : Except Interruption (Except String (List String)) := do
  let authorized ← services.authorizedWorkspaceIds keyInfo
  if requestedWorkspaceId ≠ "" then
    if requestedWorkspaceId ∉ authorized then
      return .error ("Error: " ++
        describeWorkspaceDenial keyInfo.toAPIKeyInfo requestedWorkspaceId)
    else return .ok [requestedWorkspaceId]
  else if authorized = [] then
    return .error "No workspaces found. Upload documents to create a workspace."
  else return .ok authorized

/-- What `_run_search` returns when it has no error. -/
structure ToolSearch where
  tagged : List (String × ToolSearchResult)
  workspaceIds : List String
  eventId : Option String
  deriving DecidableEq

/-- The event after a search in a workspace. -/
def capturedEvent (services : ToolServices) (capture : Bool) (workspaceId : String)
    (eventId : Option String) : Except Interruption (Option String) :=
  if capture then services.captureSearchEvent workspaceId else .ok eventId

/-- The loop of `_run_search` over the workspaces. -/
def searchWorkspaces (services : ToolServices) (keyInfo : McpKeyInfo)
    (request : ToolSearchRequest) (capture : Bool) (eventId : Option String) :
    List String →
    Except Interruption (Except String (List (String × ToolSearchResult) × Option String))
  | [] => .ok (.ok ([], eventId))
  | workspaceId :: rest => do
    let tenantUserId ← services.dataPlaneUserId workspaceId keyInfo.userId
    match services.search workspaceId tenantUserId request with
    | .interrupted cause => throw cause
    | .tagFilterError message => return .error ("Error: " ++ message)
    | .results results =>
      let eventId ← capturedEvent services capture workspaceId eventId
      let answer ← searchWorkspaces services keyInfo request capture eventId rest
      return answer.map fun found =>
        (results.map (fun result => (workspaceId, result)) ++ found.1, found.2)

/-- `_search_rank_key`: by descending score, then by chunk and document id. -/
def searchRankLe (a b : String × ToolSearchResult) : Bool :=
  b.2.score < a.2.score ∨
    (a.2.score = b.2.score ∧ (a.2.chunkId < b.2.chunkId ∨
      (a.2.chunkId = b.2.chunkId ∧ a.2.documentId ≤ b.2.documentId)))

/-- `_run_search`; a multi-workspace search captures no event. -/
def runSearch (services : ToolServices) (keyInfo : McpKeyInfo) (arguments : ToolArguments)
    (capture : Bool) : Except Interruption (Except String ToolSearch) := do
  if arguments.query = "" then return .error "Error: Query is required"
  else
    match ← getWorkspaceIds services keyInfo arguments.workspaceId with
    | .error message => return .error message
    | .ok workspaceIds =>
      match buildSearchRequest arguments with
      | none => throw (.exception (services.validationError arguments))
      | some request =>
        match ← searchWorkspaces services keyInfo request
            (capture && workspaceIds.length = 1) none workspaceIds with
        | .error message => return .error message
        | .ok (tagged, eventId) =>
          return .ok
            { tagged := (tagged.insertionSort fun a b => searchRankLe a b).take request.limit
              workspaceIds := workspaceIds
              eventId := eventId }

/-- `_resolve_document_for_user` of a reading tool. -/
def resolveDocumentForUser (services : ToolServices) (keyInfo : McpKeyInfo)
    (documentId : String) : Except Interruption (Except String ToolDocument) := do
  let notFound := "Error: Document '" ++ documentId ++ "' not found"
  match ← services.documentById documentId with
  | none => return .error notFound
  | some document =>
    let authorized ← services.authorizedWorkspaceIds keyInfo
    if document.workspaceId ∉ authorized then return .error notFound
    else return .ok document

/-! ## The handlers -/

/-- `_coverage_note`. -/
def coverageNote (workspaceIds : List String) : String :=
  match workspaceIds with
  | [] => ""
  | [workspaceId] => " in workspace '" ++ workspaceId ++ "'"
  | _ => " across your " ++ toString workspaceIds.length ++ " authorized workspaces (" ++
      ", ".intercalate workspaceIds ++ ")"

/-- The first 500 characters of a content, fenced. -/
def contentPreview (content : String) : String :=
  "```\n" ++ String.ofList (content.toList.take 500) ++
    (if content.length > 500 then "..." else "") ++ "\n```\n\n"

/-- The lines of the results of `_handle_search`, from the number `i` on. -/
def searchLines (services : ToolServices) (i : Nat) :
    List (String × ToolSearchResult) → String
  | [] => ""
  | (workspaceId, result) :: rest =>
    "**" ++ toString i ++ ". " ++ result.documentName ++ "** (score: " ++
      services.formatScore result.score ++ ")\n" ++
      "Document ID: " ++ result.documentId ++ " | Workspace: " ++ workspaceId ++ "\n" ++
      contentPreview result.content ++ searchLines services (i + 1) rest

/-- The ids that are not empty. -/
def truthyIds (ids : List String) : List String := ids.filter (· ≠ "")

/-- `_handle_search`. -/
def handleSearch (services : ToolServices) : ToolHandler := fun keyInfo arguments => do
  match ← runSearch services keyInfo arguments true with
  | .error message => return [.plain message]
  | .ok run =>
    recordReturnedChunkIds (truthyIds (run.tagged.map fun item => item.2.chunkId))
    recordWorkspaceIds run.workspaceIds
    let note := coverageNote run.workspaceIds
    let payload := ToolPayload.search arguments.query run.tagged run.workspaceIds run.eventId
    if run.tagged = [] then
      return [.structured ("No results found for: " ++ arguments.query ++ note) payload]
    else
      let summary := "Found " ++ toString run.tagged.length ++ " results for '" ++
        arguments.query ++ "'" ++ note ++ ":\n\n" ++ searchLines services 1 run.tagged
      return [.structured (rstripText summary) payload]

/-- The citations of the results that have one. -/
def citationsOf (tagged : List (String × ToolSearchResult)) : List (String × Citation) :=
  tagged.filterMap fun item => item.2.citation.map fun citation => (item.1, citation)

/-- The lines of `_handle_get_citations`, from the number `i` on. -/
def citationLines (services : ToolServices) (i : Nat) : List (String × Citation) → String
  | [] => ""
  | (_, citation) :: rest =>
    "**" ++ toString i ++ ". " ++ citation.documentName ++ "** (score: " ++
      services.formatScore citation.score ++ ") chunk " ++ citation.chunkId ++ "\n" ++
      citationLines services (i + 1) rest

/-- `_handle_get_citations`. -/
def handleGetCitations (services : ToolServices) : ToolHandler := fun keyInfo arguments => do
  match ← runSearch services keyInfo arguments false with
  | .error message => return [.plain message]
  | .ok run =>
    let citations := citationsOf run.tagged
    recordReturnedChunkIds (truthyIds (citations.map fun item => item.2.chunkId))
    recordWorkspaceIds run.workspaceIds
    let payload := ToolPayload.citations arguments.query citations run.workspaceIds
    if citations = [] then
      return [.structured ("No citations found for: " ++ arguments.query) payload]
    else
      let summary := "Found " ++ toString citations.length ++ " citations for '" ++
        arguments.query ++ "'" ++ coverageNote run.workspaceIds ++ ":\n\n" ++
        citationLines services 1 citations
      return [.structured (rstripText summary) payload]

/-- `_handle_get_context`. -/
def handleGetContextTool (services : ToolServices) : ToolHandler := fun keyInfo arguments => do
  if arguments.documentId = "" then return [.plain "Error: Document ID is required"]
  else
    match ← resolveDocumentForUser services keyInfo arguments.documentId with
    | .error message => return [.plain message]
    | .ok document =>
      let chunks ← services.chunksByDocId arguments.documentId
      let window := handleGetContext chunks arguments.maxChars arguments.offset
      let resultText := "# " ++ document.name ++ "\n\n" ++
        "**Source:** " ++ document.sourceType ++ "\n" ++
        "**Size:** " ++ services.formatSize document.sizeBytes ++ " bytes\n" ++
        "**Chunks in this page:** " ++ toString window.chunks.length ++ " of " ++
        toString chunks.length ++ "\n" ++
        "**Workspace:** " ++ document.workspaceId ++ "\n\n" ++
        "---\n\n" ++ String.ofList window.fullText
      recordReturnedChunkIds (window.chunks.map PublicChunk.id)
      recordWorkspaceIds [document.workspaceId]
      return [.structured resultText (.context document.id window)]

/-- `_handle_list_chunks`. -/
def handleListChunks (services : ToolServices) : ToolHandler := fun keyInfo arguments => do
  if arguments.documentId = "" then return [.plain "Error: Document ID is required"]
  else
    match ← resolveDocumentForUser services keyInfo arguments.documentId with
    | .error message => return [.plain message]
    | .ok document =>
      let chunks ← services.chunksByDocId document.id
      recordReturnedChunkIds (chunks.map PublicChunk.id)
      recordWorkspaceIds [document.workspaceId]
      return [.structured
        (toString chunks.length ++ " chunks for document '" ++ document.id ++ "'")
        (.chunks chunks)]

/-- The lines of the results of a profile tool, from the number `i` on. -/
def profileLines (services : ToolServices) (i : Nat) : List ToolSearchResult → String
  | [] => ""
  | result :: rest =>
    "**" ++ toString i ++ ". " ++ result.documentName ++ "**" ++
      (if result.sectionHeading = "" then "" else " — " ++ result.sectionHeading) ++
      " (score: " ++ services.formatScore result.score ++ ")\n" ++
      "Document ID: " ++ result.documentId ++ "\n" ++
      contentPreview result.content ++ profileLines services (i + 1) rest

/-- The arguments of the search that a profile tool makes. -/
def ToolProfile.searchArguments (profile : ToolProfile) (arguments : ToolArguments) :
    ToolArguments where
  query := arguments.query
  limit := some (max 1 (min profile.maxLimit (arguments.limit.getD profile.defaultLimit)))
  filters := profile.filters.filterMap fun field =>
    (arguments.fields.lookup field).map fun value => (field, value)

/-- The handler of a profile tool (`_make_profile_handler`). -/
def profileHandler (services : ToolServices) (profile : ToolProfile) (workspaceId : String) :
    ToolHandler := fun keyInfo arguments => do
  if arguments.query = "" then return [.plain "Error: Query is required"]
  else
    match buildSearchRequest (profile.searchArguments arguments) with
    | none => throw (.exception (services.validationError (profile.searchArguments arguments)))
    | some request =>
      let tenantUserId ← services.dataPlaneUserId workspaceId keyInfo.userId
      match services.search workspaceId tenantUserId request with
      | .interrupted cause => throw cause
      | .tagFilterError message => return [.plain ("Error: " ++ message)]
      | .results results =>
        recordReturnedChunkIds (truthyIds (results.map ToolSearchResult.chunkId))
        recordWorkspaceIds [workspaceId]
        let payload := ToolPayload.profile arguments.query results workspaceId
        if results = [] then
          return [.structured ("No results found for: " ++ arguments.query) payload]
        else
          let summary := "Found " ++ toString results.length ++ " results for '" ++
            arguments.query ++ "' (profile: " ++ profile.name ++ "):\n\n" ++
            profileLines services 1 results
          return [.structured (rstripText summary) payload]

/-! ## The registry -/

/-- `_TOOLS`. -/
def toolRegistry (services : ToolServices) : List (String × ToolDef) :=
  let other (name permission : String) (httpExposed : Bool) : String × ToolDef :=
    (name, { permission, httpExposed, handler := services.otherHandler name })
  let retrieval (name permission : String) (httpExposed : Bool) (handler : ToolHandler) :
      String × ToolDef :=
    (name, { permission, httpExposed, handler, returnsChunkContent := true })
  [other "whoami" "read" true,
    retrieval "search_documents" "search" true (handleSearch services),
    retrieval "search_memory" "search" false (handleSearch services),
    retrieval "get_citations" "search" false (handleGetCitations services),
    retrieval "get_document_context" "read" true (handleGetContextTool services),
    other "list_documents" "read" true,
    other "verify_claim" "read" false,
    other "explain_lineage" "read" true,
    other "refresh_stale_source" "write" true,
    other "report_feedback" "search" false,
    other "get_retrieval_health" "search" true,
    other "delete_document" "write" true,
    other "get_document" "read" true,
    retrieval "list_chunks" "read" true (handleListChunks services),
    other "create_chunk" "write" true,
    other "edit_chunk" "write" true,
    other "delete_chunk" "write" true,
    other "upload_document" "write" true,
    other "list_workspaces" "read" true]

/-- `_TOOLS.get(name)`. -/
def toolNamed (services : ToolServices) (name : String) : Option ToolDef :=
  (toolRegistry services).lookup name

/-- `_http_tools().get(name)`. -/
def httpToolNamed (services : ToolServices) (name : String) : Option ToolDef :=
  ((toolRegistry services).filter fun item => item.2.httpExposed).lookup name

/-- `resolve_profile_tools(...).get(name)`: a profile under a name of the registry is skipped,
    and the last one of a name counts. -/
def profileToolNamed (services : ToolServices) (keyInfo : McpKeyInfo) (name : String) :
    Option ToolDef :=
  match services.effectivePack keyInfo with
  | none => none
  | some (workspaceId, profiles) =>
    (profiles.reverse.find? fun profile =>
        profile.name = name ∧ (toolNamed services profile.name).isNone).map fun profile =>
      { permission := "search"
        handler := profileHandler services profile workspaceId
        returnsChunkContent := true }

end Inherent
