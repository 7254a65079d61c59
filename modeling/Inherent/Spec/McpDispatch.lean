import Inherent.Native.McpDispatch
import Inherent.Spec.McpTools

/-!
# Every MCP call is authorized and audited

The three dispatchers run a handler only for an identity that holds the tool's grant, and on
HTTP within its quota.  A call of a tool that returns chunk content leaves one audit event,
unless it is cancelled; the event says how the call ended and lists the chunks that its
response shows, unless the handler has given up with a text that does not look like an error.
-/

namespace Inherent

variable {services : ToolServices} {now : Timestamp} {caller : McpCaller} {name : String}
  {arguments : ToolArguments} {quota : QuotaOutcome} {tool : ToolDef} {keyInfo : McpKeyInfo}

/-! ## The caller -/

/-- The identity that a call is resolved to. -/
def callerIdentity (services : ToolServices) (now : Timestamp) (caller : McpCaller)
    (arguments : ToolArguments) : Option McpKeyInfo :=
  match caller with
  | .stdio =>
    if arguments.apiKey = "" then none
    else
      match services.validateApiKey arguments.apiKey with
      | .ok (some keyInfo) => if keyInfo.IsExpired now then none else some keyInfo
      | _ => none
  | .http (some keyInfo) _ => some keyInfo
  | .http none (some principal) => principal.keyInfo?
  | .http none none => none

/-- The tool of a name that the caller finds. -/
def foundTool (services : ToolServices) (now : Timestamp) (caller : McpCaller) (name : String)
    (arguments : ToolArguments) : Option ToolDef :=
  match caller with
  | .stdio =>
    (callerIdentity services now caller arguments).bind fun _ => toolNamed services name
  | .http none none => none
  | .http _ _ =>
    (httpToolNamed services name).or <|
      (callerIdentity services now caller arguments).bind fun keyInfo =>
        profileToolNamed services keyInfo name

/-- The caller holds the permission of the tool, or an OAuth token its scope. -/
def HoldsGrant (services : ToolServices) (now : Timestamp) (caller : McpCaller)
    (arguments : ToolArguments) (tool : ToolDef) : Prop :=
  match caller with
  | .http none (some principal) => requiredScope tool.permission ∈ principal.scopes
  | _ => ∃ keyInfo ∈ callerIdentity services now caller arguments,
      keyInfo.HasPermission tool.permission

/-- The call of a tool is authorized. -/
structure Authorized (services : ToolServices) (now : Timestamp) (caller : McpCaller)
    (arguments : ToolArguments) (quota : QuotaOutcome) (tool : ToolDef) : Prop where
  identity : (callerIdentity services now caller arguments).isSome = true
  grant : HoldsGrant services now caller arguments tool
  quota : caller ≠ .stdio → quota = .allowed

/-! ## What an audit trail says of a call -/

/-- The ids of the chunks that a text shows. -/
def ToolText.chunkIds : ToolText → List String
  | .plain _ => []
  | .structured _ payload => payload.chunkIds

/-- The ids of the chunks that the response of a call shows. -/
def CallReport.shownChunkIds (report : CallReport) : List String :=
  match report.response with
  | none => []
  | some response => response.content.flatMap ToolText.chunkIds

/-- The handler has given up with a text instead of a result. -/
def GaveUp (content : List ToolText) : Bool :=
  match content with
  | .plain _ :: _ => true
  | _ => false

/-- The outcome of a call by how its handler ended, if it ran. -/
def expectedOutcome : Option (Except Interruption (List ToolText)) → AuditOutcome
  | none => .denied
  | some (.error _) => .error
  | some (.ok content) => if GaveUp content then .error else .ok

/-- One audit event is published; it names the tool and the caller, says how the call ended,
    and lists the chunks that the response shows, which are none unless the call is `ok`. -/
def CallReport.AttributedOnce (report : CallReport) (name : String)
    (identity : Option McpKeyInfo) : Prop :=
  ∃ event, report.events = [event] ∧ event.toolName = name ∧
    event.userId = (identity.map fun keyInfo => keyInfo.userId).getD "unknown" ∧
    event.outcome = expectedOutcome report.handled ∧
    event.returnedChunkIds = report.shownChunkIds ∧
    (event.outcome ≠ .ok → event.returnedChunkIds = [])

/-! ## The tools that are found -/

/-- The tools whose handlers search in all workspaces of a key. -/
def searchToolNames : List String := ["search_documents", "search_memory", "get_citations"]

/-- The call gives up for the lack of a workspace, with a text that does not look like an
    error. -/
def GivesUpUnmarked (services : ToolServices) (name : String) (keyInfo : McpKeyInfo)
    (arguments : ToolArguments) : Prop :=
  name ∈ searchToolNames ∧ NoWorkspaces services keyInfo arguments

/-- The handler of an audited tool of the registry. -/
theorem handlerEnd_of_mem_toolRegistry {item : String × ToolDef}
    (hitem : item ∈ toolRegistry services) (haudited : item.2.returnsChunkContent = true) :
    HandlerEnd services (GivesUpUnmarked services item.1 keyInfo arguments)
      (item.2.runHandler keyInfo arguments) := by
  have hsearch : ∀ name ∈ searchToolNames, ∀ {run},
      HandlerEnd services (NoWorkspaces services keyInfo arguments) run →
      HandlerEnd services (GivesUpUnmarked services name keyInfo arguments) run := by
    intro name hname run hend
    rwa [GivesUpUnmarked, and_iff_right hname]
  have hother : ∀ name ∉ searchToolNames, ∀ {run}, HandlerEnd services False run →
      HandlerEnd services (GivesUpUnmarked services name keyInfo arguments) run := by
    intro name hname run hend
    rwa [GivesUpUnmarked, iff_false_intro hname, false_and]
  simp only [toolRegistry, List.mem_cons, List.not_mem_nil, or_false] at hitem
  rcases hitem with rfl | rfl | rfl | rfl | rfl | rfl | rfl | rfl | rfl | rfl | rfl | rfl |
    rfl | rfl | rfl | rfl | rfl | rfl | rfl
  case inr.inl => exact hsearch "search_documents" (by decide) handlerEnd_handleSearch
  case inr.inr.inl => exact hsearch "search_memory" (by decide) handlerEnd_handleSearch
  case inr.inr.inr.inl => exact hsearch "get_citations" (by decide) handlerEnd_handleGetCitations
  case inr.inr.inr.inr.inl =>
    exact hother "get_document_context" (by decide) handlerEnd_handleGetContextTool
  case inr.inr.inr.inr.inr.inr.inr.inr.inr.inr.inr.inr.inr.inl =>
    exact hother "list_chunks" (by decide) handlerEnd_handleListChunks
  -- the other tools return no chunk content
  all_goals cases haudited

/-- What a lookup finds is an item of the list. -/
private theorem mem_of_lookup_eq_some {items : List (String × ToolDef)}
    (h : items.lookup name = some tool) : (name, tool) ∈ items := by
  induction items with
  | nil => cases h
  | cons item items ih =>
    obtain ⟨name', tool'⟩ := item
    rw [List.lookup_cons] at h
    split at h
    · rename_i heq
      obtain rfl := eq_of_beq heq
      obtain rfl := Option.some.inj h
      exact List.mem_cons_self
    · exact List.mem_cons_of_mem _ (ih h)

theorem handlerEnd_of_toolNamed (h : toolNamed services name = some tool)
    (haudited : tool.returnsChunkContent = true) :
    HandlerEnd services (GivesUpUnmarked services name keyInfo arguments)
      (tool.runHandler keyInfo arguments) :=
  handlerEnd_of_mem_toolRegistry (mem_of_lookup_eq_some h) haudited

theorem handlerEnd_of_httpToolNamed (h : httpToolNamed services name = some tool)
    (haudited : tool.returnsChunkContent = true) :
    HandlerEnd services (GivesUpUnmarked services name keyInfo arguments)
      (tool.runHandler keyInfo arguments) :=
  handlerEnd_of_mem_toolRegistry (List.mem_of_mem_filter (mem_of_lookup_eq_some h)) haudited

/-- A profile tool has no name of the registry. -/
theorem handlerEnd_of_profileToolNamed {keyInfo' : McpKeyInfo}
    (h : profileToolNamed services keyInfo' name = some tool) :
    HandlerEnd services (GivesUpUnmarked services name keyInfo arguments)
      (tool.runHandler keyInfo arguments) := by
  unfold profileToolNamed at h
  split at h
  · cases h
  · obtain ⟨profile, hfound, rfl⟩ := Option.map_eq_some_iff.mp h
    have hname := List.find?_some hfound
    rw [decide_eq_true_eq] at hname
    have hsearch : name ∉ searchToolNames := by
      intro hmem
      have hbuiltin : ∀ name ∈ searchToolNames, (toolNamed services name).isSome = true := by
        simp [searchToolNames, toolNamed, toolRegistry, List.lookup]
      have hsome := hbuiltin name hmem
      rw [← hname.1, Option.isNone_iff_eq_none.mp hname.2] at hsome
      cases hsome
    have hmarked : GivesUpUnmarked services name keyInfo arguments ↔ False :=
      iff_false_intro fun h => hsearch h.1
    rw [hmarked]
    exact handlerEnd_profileHandler

/-- A tool that the caller finds. -/
theorem handlerEnd_of_foundTool (h : foundTool services now caller name arguments = some tool)
    (haudited : tool.returnsChunkContent = true) :
    HandlerEnd services (GivesUpUnmarked services name keyInfo arguments)
      (tool.runHandler keyInfo arguments) := by
  have hhttp : ∀ {identity : Option McpKeyInfo}, (httpToolNamed services name).or
      (identity.bind fun keyInfo => profileToolNamed services keyInfo name) = some tool →
      HandlerEnd services (GivesUpUnmarked services name keyInfo arguments)
        (tool.runHandler keyInfo arguments) := by
    intro identity h
    rcases Option.or_eq_some_iff.mp h with h | ⟨-, h⟩
    · exact handlerEnd_of_httpToolNamed h haudited
    · obtain ⟨keyInfo', -, h⟩ := Option.bind_eq_some_iff.mp h
      exact handlerEnd_of_profileToolNamed h
  unfold foundTool at h
  split at h
  · obtain ⟨_, -, h⟩ := Option.bind_eq_some_iff.mp h
    exact handlerEnd_of_toolNamed h haudited
  · cases h
  · exact hhttp h

/-! ## What is published -/

/-- A call that is refused before its handler runs leaves the event of a denial. -/
theorem attributedOnce_auditDenied {response : ToolResponse}
    (haudited : tool.returnsChunkContent = true)
    (hplain : response.content.flatMap ToolText.chunkIds = []) :
    (CallReport.refused response (auditDenied tool name keyInfo arguments)).AttributedOnce name
      (some keyInfo) := by
  rw [auditDenied, if_pos haudited]
  exact ⟨_, rfl, rfl, rfl, rfl, hplain.symm, fun _ => rfl⟩

/-- So does a refused OAuth call, also without an identity. -/
theorem attributedOnce_oauth {principal : OAuthPrincipal} {response : ToolResponse}
    (haudited : tool.returnsChunkContent = true)
    (hplain : response.content.flatMap ToolText.chunkIds = []) :
    (CallReport.refused response (principal.auditDenied tool name arguments)).AttributedOnce name
      principal.keyInfo? := by
  unfold OAuthPrincipal.auditDenied
  cases principal.keyInfo? with
  | some keyInfo => exact attributedOnce_auditDenied haudited hplain
  | none =>
    rw [auditDeniedUnresolvedOauth, if_pos haudited]
    exact ⟨_, rfl, rfl, rfl, rfl, hplain.symm, fun _ => rfl⟩

/-- The ids of the chunks that what a handler returns shows. -/
def endChunkIds : Except Interruption (List ToolText) → List String
  | .ok content => content.flatMap ToolText.chunkIds
  | .error _ => []

/-- A call whose handler runs is attributed exactly when it is not cancelled and does not give
    up unmarked. -/
theorem attributedOnce_dispatched_iff {unmarked : Prop} {report : CallReport}
    (haudited : tool.returnsChunkContent = true)
    (hend : HandlerEnd services unmarked (tool.runHandler keyInfo arguments))
    (hhandled : report.handled = some (tool.runHandler keyInfo arguments).1)
    (hevents : report.events = dispatchAndAudit services tool name keyInfo arguments)
    (hshown : report.shownChunkIds = endChunkIds (tool.runHandler keyInfo arguments).1) :
    report.AttributedOnce name (some keyInfo) ↔
      (tool.runHandler keyInfo arguments).1 ≠ .error .cancelled ∧ ¬ unmarked := by
  unfold CallReport.AttributedOnce
  rw [hhandled, hevents, hshown, dispatchAndAudit, if_pos haudited]
  generalize tool.runHandler keyInfo arguments = run at hend ⊢
  cases hend with
  | interrupted cause vars hmarked =>
    cases cause with
    | exception message =>
      exact iff_of_true ⟨_, rfl, rfl, rfl, rfl, rfl, fun _ => rfl⟩ ⟨nofun, hmarked⟩
    | cancelled =>
      refine iff_of_false ?_ fun h => h.1 rfl
      rintro ⟨event, hevent, -⟩
      cases hevent
  | gaveUp text vars htext =>
    have htext' : reportsError services [.plain text] = startsWithError text := rfl
    dsimp only
    rw [htext']
    by_cases hmarked : unmarked
    · -- the event says that the call was fine
      have hfalse : startsWithError text = false :=
        Bool.eq_false_iff.mpr fun h => htext.mp h hmarked
      refine iff_of_false ?_ fun h => h.2 hmarked
      rintro ⟨event, hevent, -, -, houtcome, -⟩
      obtain rfl := List.singleton_inj.mp hevent
      simp [hfalse, expectedOutcome, GaveUp, McpKeyInfo.auditEvent, publishedEvent] at houtcome
    · rw [htext.mpr hmarked]
      exact iff_of_true ⟨_, rfl, rfl, rfl, rfl, rfl, fun _ => rfl⟩ ⟨nofun, hmarked⟩
  | result summary payload vars hmarked htext hids =>
    have htext' : reportsError services [.structured summary payload] = false := htext
    dsimp only
    rw [htext', hids]
    refine iff_of_true ⟨_, rfl, rfl, rfl, rfl, ?_, fun h => absurd rfl h⟩ ⟨nofun, hmarked⟩
    exact (List.append_nil _).symm

/-- An HTTP response shows what the handler has returned. -/
theorem shownChunkIds_dispatchHttp {unmarked : Prop}
    (hend : HandlerEnd services unmarked (tool.runHandler keyInfo arguments)) :
    (dispatchHttp services tool name keyInfo arguments).shownChunkIds =
      endChunkIds (tool.runHandler keyInfo arguments).1 := by
  unfold dispatchHttp CallReport.shownChunkIds
  generalize tool.runHandler keyInfo arguments = run at hend ⊢
  cases hend with
  | interrupted cause vars hmarked => cases cause <;> rfl
  | gaveUp text vars htext =>
    dsimp only [handledResult]
    split <;> rfl
  | result summary payload vars hmarked htext hids =>
    dsimp only [handledResult]
    rw [htext]
    rfl

/-! ## The dispatchers -/

/-- What becomes of a call of a tool that is found. -/
inductive CallCase (services : ToolServices) (now : Timestamp) (caller : McpCaller)
    (name : String) (arguments : ToolArguments) (quota : QuotaOutcome) (tool : ToolDef) :
    CallReport → Prop where
  | refused (report : CallReport) (hauthorized : ¬ Authorized services now caller arguments quota tool)
    (hchecked : HoldsGrant services now caller arguments tool → caller ≠ .stdio →
      quota ≠ .cancelled)
    (hhandled : report.handled = none)
    (hattributed : tool.returnsChunkContent = true →
      report.AttributedOnce name (callerIdentity services now caller arguments)) :
    CallCase services now caller name arguments quota tool report
  | cancelled (hgrant : HoldsGrant services now caller arguments tool) (hcaller : caller ≠ .stdio)
    (hquota : quota = .cancelled) :
    CallCase services now caller name arguments quota tool { response := none }
  | ran (report : CallReport) (keyInfo : McpKeyInfo)
    (hidentity : callerIdentity services now caller arguments = some keyInfo)
    (hauthorized : Authorized services now caller arguments quota tool)
    (hhandled : report.handled = some (tool.runHandler keyInfo arguments).1)
    (hevents : report.events = dispatchAndAudit services tool name keyInfo arguments)
    (hshown : tool.returnsChunkContent = true →
      report.shownChunkIds = endChunkIds (tool.runHandler keyInfo arguments).1) :
    CallCase services now caller name arguments quota tool report

/-- The key of a call over stdio is valid and has not expired. -/
theorem callerIdentity_stdio_eq_some :
    callerIdentity services now .stdio arguments = some keyInfo ↔
      arguments.apiKey ≠ "" ∧ services.validateApiKey arguments.apiKey = .ok (some keyInfo) ∧
        ¬ keyInfo.IsExpired now := by
  have hidentity : callerIdentity services now .stdio arguments =
      if arguments.apiKey = "" then none
      else
        match services.validateApiKey arguments.apiKey with
        | .ok (some keyInfo) => if keyInfo.IsExpired now then none else some keyInfo
        | _ => none := rfl
  rw [hidentity, Option.ite_none_left_eq_some]
  refine and_congr_right fun _ => ?_
  split
  · rename_i keyInfo' hvalid
    rw [hvalid, Option.ite_none_left_eq_some, Option.some.injEq, Except.ok.injEq,
      Option.some.injEq]
    constructor
    · rintro ⟨hlive, rfl⟩
      exact ⟨rfl, hlive⟩
    · rintro ⟨rfl, hlive⟩
      exact ⟨hlive, rfl⟩
  · rename_i hinvalid
    exact iff_of_false nofun fun h => hinvalid keyInfo h.1

/-- A call over stdio of a tool that is found. -/
theorem callCase_stdio (h : foundTool services now .stdio name arguments = some tool) :
    CallCase services now .stdio name arguments quota tool
      (callToolStdio services now name arguments) := by
  obtain ⟨keyInfo, hidentity, htool⟩ := Option.bind_eq_some_iff.mp h
  obtain ⟨hkey, hvalid, hlive⟩ := callerIdentity_stdio_eq_some.mp hidentity
  have hgrant : HoldsGrant services now .stdio arguments tool ↔
      keyInfo.HasPermission tool.permission := by
    simp [HoldsGrant, hidentity]
  unfold callToolStdio
  rw [if_neg hkey, hvalid]
  dsimp only
  rw [if_neg hlive, htool]
  dsimp only
  by_cases hpermission : keyInfo.HasPermission tool.permission
  · rw [if_neg (not_not.mpr hpermission)]
    refine .ran _ keyInfo hidentity ?_ rfl rfl ?_
    · exact ⟨by rw [hidentity]; rfl, hgrant.mpr hpermission, fun h => absurd rfl h⟩
    · intro _
      unfold CallReport.shownChunkIds
      generalize (tool.runHandler keyInfo arguments).1 = handled
      cases handled with
      | error cause => cases cause <;> rfl
      | ok content => rfl
  · rw [if_pos hpermission]
    refine .refused _ (fun h => hpermission (hgrant.mp h.grant)) (fun h => ?_) rfl ?_
    · exact absurd (hgrant.mp h) hpermission
    · intro haudited
      rw [hidentity]
      exact attributedOnce_auditDenied haudited rfl

/-- A call over HTTP with an API key of a tool that is found. -/
theorem callCase_httpKey {principal : Option OAuthPrincipal}
    (h : foundTool services now (.http (some keyInfo) principal) name arguments = some tool) :
    CallCase services now (.http (some keyInfo) principal) name arguments quota tool
      (callToolHttpKey services keyInfo name arguments quota) := by
  have hfound := h
  have htool : (httpToolNamed services name).or (profileToolNamed services keyInfo name) =
      some tool := h
  have hidentity : callerIdentity services now (.http (some keyInfo) principal) arguments =
      some keyInfo := rfl
  have hgrant : HoldsGrant services now (.http (some keyInfo) principal) arguments tool ↔
      keyInfo.HasPermission tool.permission := by
    simp [HoldsGrant, hidentity]
  unfold callToolHttpKey
  rw [htool]
  dsimp only
  by_cases hpermission : keyInfo.HasPermission tool.permission
  · rw [if_neg (not_not.mpr hpermission)]
    cases quota with
    | exceeded denial =>
      refine .refused _ (fun h => nomatch h.quota nofun) (fun _ _ => nofun) rfl ?_
      intro haudited
      exact attributedOnce_auditDenied haudited rfl
    | cancelled => exact .cancelled (hgrant.mpr hpermission) nofun rfl
    | allowed =>
      refine .ran _ keyInfo hidentity ⟨rfl, hgrant.mpr hpermission, fun _ => rfl⟩ rfl rfl ?_
      intro haudited
      exact shownChunkIds_dispatchHttp (handlerEnd_of_foundTool hfound haudited)
  · rw [if_pos hpermission]
    refine .refused _ (fun h => hpermission (hgrant.mp h.grant)) (fun h => ?_) rfl ?_
    · exact absurd (hgrant.mp h) hpermission
    · intro haudited
      exact attributedOnce_auditDenied haudited rfl

/-- A call over HTTP with an OAuth token of a tool that is found. -/
theorem callCase_oauth {principal : OAuthPrincipal}
    (h : foundTool services now (.http none (some principal)) name arguments = some tool) :
    CallCase services now (.http none (some principal)) name arguments quota tool
      (callToolOauth services principal name arguments quota) := by
  have hfound := h
  have htool : (httpToolNamed services name).or (principal.keyInfo?.bind fun keyInfo =>
      profileToolNamed services keyInfo name) = some tool := h
  have hgrant : HoldsGrant services now (.http none (some principal)) arguments tool ↔
      requiredScope tool.permission ∈ principal.scopes := Iff.rfl
  unfold callToolOauth
  dsimp only
  rw [htool]
  dsimp only
  -- the scope is looked at first, then the quota, and then the identity
  by_cases hscope : requiredScope tool.permission ∈ principal.scopes
  · rw [if_neg (not_not.mpr hscope)]
    cases quota with
    | exceeded denial =>
      refine .refused _ (fun h => nomatch h.quota nofun) (fun _ _ => nofun) rfl ?_
      intro haudited
      exact attributedOnce_oauth haudited rfl
    | cancelled => exact .cancelled hscope nofun rfl
    | allowed =>
      dsimp only
      split
      · rename_i hnone
        have hidentity : callerIdentity services now (.http none (some principal)) arguments =
            none := hnone
        refine .refused _ (fun h => ?_) (fun _ _ => nofun) rfl ?_
        · have := h.identity
          rw [hidentity] at this
          cases this
        · intro haudited
          rw [hidentity, auditDeniedUnresolvedOauth, if_pos haudited]
          exact ⟨_, rfl, rfl, rfl, rfl, rfl, fun _ => rfl⟩
      · rename_i keyInfo hsome
        have hidentity : callerIdentity services now (.http none (some principal)) arguments =
            some keyInfo := hsome
        refine .ran _ keyInfo hidentity ⟨by rw [hidentity]; rfl, hscope, fun _ => rfl⟩ rfl rfl ?_
        intro haudited
        exact shownChunkIds_dispatchHttp (handlerEnd_of_foundTool hfound haudited)
  · rw [if_pos hscope]
    refine .refused _ (fun h => hscope (hgrant.mp h.grant)) (fun h => ?_) rfl ?_
    · exact absurd (hgrant.mp h) hscope
    · intro haudited
      exact attributedOnce_oauth haudited rfl

theorem callCase_callTool (h : foundTool services now caller name arguments = some tool) :
    CallCase services now caller name arguments quota tool
      (callTool services now caller name arguments quota) := by
  match caller with
  | .stdio => exact callCase_stdio h
  | .http (some keyInfo) _ => exact callCase_httpKey h
  | .http none (some principal) => exact callCase_oauth h
  | .http none none => cases h

/-- No handler runs for a tool that is not found. -/
theorem handled_of_foundTool_eq_none
    (h : foundTool services now caller name arguments = none) :
    (callTool services now caller name arguments quota).handled = none := by
  match caller with
  | .stdio =>
    change (callToolStdio services now name arguments).handled = none
    unfold callToolStdio
    split
    · rfl
    · rename_i hkey
      split
      · rfl
      · rfl
      · rfl
      · rename_i keyInfo hvalid
        split
        · rfl
        · rename_i hlive
          -- only a live key gets as far as the lookup of the tool
          have hidentity : callerIdentity services now .stdio arguments = some keyInfo :=
            callerIdentity_stdio_eq_some.mpr ⟨hkey, hvalid, hlive⟩
          have htool : toolNamed services name = none := by
            rwa [foundTool, hidentity] at h
          rw [htool]
          rfl
  | .http (some keyInfo) _ =>
    have htool : (httpToolNamed services name).or (profileToolNamed services keyInfo name) =
      none := h
    simp only [callTool, callToolHttpKey, htool, CallReport.refused]
  | .http none (some principal) =>
    have htool : (httpToolNamed services name).or (principal.keyInfo?.bind fun keyInfo =>
      profileToolNamed services keyInfo name) = none := h
    simp only [callTool, callToolOauth, htool, CallReport.refused]
  | .http none none => rfl

/-! ## Authorized and audited -/

/-- A handler runs only for an authorized call, and a call of a tool that returns chunk content
    is attributed once. -/
structure DispatchMeets (services : ToolServices) (now : Timestamp) (caller : McpCaller)
    (name : String) (arguments : ToolArguments) (quota : QuotaOutcome) : Prop where
  authorized : (callTool services now caller name arguments quota).handled.isSome = true →
    ∃ tool, foundTool services now caller name arguments = some tool ∧
      Authorized services now caller arguments quota tool
  attributed : ∀ tool, foundTool services now caller name arguments = some tool →
    tool.returnsChunkContent = true →
    (callTool services now caller name arguments quota).AttributedOnce name
      (callerIdentity services now caller arguments)

/-- The call is not cancelled while its quota is checked or its handler runs, and its handler
    does not give up unmarked. -/
def Attributable (services : ToolServices) (now : Timestamp) (caller : McpCaller) (name : String)
    (arguments : ToolArguments) (quota : QuotaOutcome) (tool : ToolDef) : Prop :=
  (HoldsGrant services now caller arguments tool → caller ≠ .stdio → quota ≠ .cancelled) ∧
    ∀ keyInfo, callerIdentity services now caller arguments = some keyInfo →
      Authorized services now caller arguments quota tool →
      (tool.runHandler keyInfo arguments).1 ≠ .error .cancelled ∧
        ¬ GivesUpUnmarked services name keyInfo arguments

/-- A call of an audited tool that is found is attributed exactly when it is attributable. -/
theorem attributedOnce_callTool_iff
    (h : foundTool services now caller name arguments = some tool)
    (haudited : tool.returnsChunkContent = true) :
    (callTool services now caller name arguments quota).AttributedOnce name
        (callerIdentity services now caller arguments) ↔
      Attributable services now caller name arguments quota tool := by
  have hcase : CallCase services now caller name arguments quota tool _ := callCase_callTool h
  generalize callTool services now caller name arguments quota = report at hcase ⊢
  cases hcase with
  | refused report hauthorized hchecked hhandled hattributed =>
    exact iff_of_true (hattributed haudited) ⟨hchecked, fun _ _ h => absurd h hauthorized⟩
  | cancelled hgrant hcaller hquota =>
    refine iff_of_false ?_ fun h => h.1 hgrant hcaller hquota
    rintro ⟨event, hevent, -⟩
    cases hevent
  | ran report keyInfo hidentity hauthorized hhandled hevents hshown =>
    rw [hidentity, attributedOnce_dispatched_iff haudited
      (handlerEnd_of_foundTool h haudited) hhandled hevents (hshown haudited)]
    constructor
    · intro hend
      refine ⟨fun _ hcaller => ?_, ?_⟩
      · rw [hauthorized.quota hcaller]
        nofun
      · intro keyInfo' hidentity' _
        obtain rfl := Option.some.inj (hidentity.symm.trans hidentity')
        exact hend
    · intro hattributable
      exact hattributable.2 keyInfo hidentity hauthorized

/-- On every transport a handler runs only for an authorized call, and the calls of tools that
    return chunk content are attributed exactly when they are attributable. -/
theorem dispatchMeets_iff (services : ToolServices) (now : Timestamp) (caller : McpCaller)
    (name : String) (arguments : ToolArguments) (quota : QuotaOutcome) :
    DispatchMeets services now caller name arguments quota ↔
      ∀ tool, foundTool services now caller name arguments = some tool →
        tool.returnsChunkContent = true →
        Attributable services now caller name arguments quota tool := by
  constructor
  · intro hmeets tool hfound haudited
    exact (attributedOnce_callTool_iff hfound haudited).mp
      (hmeets.attributed tool hfound haudited)
  · intro hattributable
    refine ⟨?_, ?_⟩
    · intro hran
      cases hfound : foundTool services now caller name arguments with
      | none =>
        rw [handled_of_foundTool_eq_none hfound] at hran
        cases hran
      | some tool =>
        refine ⟨tool, rfl, ?_⟩
        have hcase : CallCase services now caller name arguments quota tool _ :=
          callCase_callTool hfound
        generalize callTool services now caller name arguments quota = report at hcase hran
        cases hcase with
        | refused report hauthorized hchecked hhandled hattributed =>
          rw [hhandled] at hran
          cases hran
        | cancelled hgrant hcaller hquota => cases hran
        | ran report keyInfo hidentity hauthorized hhandled hevents hshown => exact hauthorized
    · intro tool hfound haudited
      exact (attributedOnce_callTool_iff hfound haudited).mpr
        (hattributable tool hfound haudited)

/-- A user without a workspace searches: the handler gives up, and the event says that the call
    was fine. -/
theorem not_dispatchMeets_noWorkspaces :
    ¬ DispatchMeets
      { validateApiKey := fun _ => .ok none
        authorizedWorkspaceIds := fun _ => .ok []
        dataPlaneUserId := fun _ userId => .ok userId
        search := fun _ _ _ => .results []
        captureSearchEvent := fun _ => .ok none
        documentById := fun _ => .ok none
        chunksByDocId := fun _ => .ok []
        effectivePack := fun _ => none
        otherHandler := fun _ _ _ => pure []
        validationError := fun _ => "invalid request"
        formatScore := fun _ => "0.00"
        formatSize := toString
        isoformat := toString
        lower := id
        dumps := fun _ => "null" }
      0
      (.http (some { keyId := "key", userId := "ada", workspaceId := none
                     permissions := ["search"] }) none)
      "search_documents" { query := "rates" } .allowed := by
  intro h
  have hattributable := (attributedOnce_callTool_iff rfl rfl).mp (h.attributed _ rfl rfl)
  exact (hattributable.2 _ rfl ⟨rfl, ⟨_, rfl, by decide⟩, fun _ => rfl⟩).2
    ⟨by decide, by decide, rfl, rfl⟩

end Inherent
