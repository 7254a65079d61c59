import Inherent.Native.McpTools

/-!
# What the retrieval tools return and report

A handler gives up with a text, or returns one result and has reported the ids of its entries
in the context variables.  A text that a handler gives up with starts with `Error:`, except
for the one that a search without any authorized workspace returns.
-/

namespace Inherent

/-! ## Runs of a handler -/

namespace ToolM

variable {α β : Type} {vars : AuditVars}

/-- How a run ends, and what it leaves in the context variables. -/
abbrev ends (x : ToolM α) (vars : AuditVars) : Except Interruption α × AuditVars :=
  x.run.run vars

/-- A call of a service that returns. -/
theorem ends_liftM_ok_bind (a : α) (f : α → ToolM β) :
    ((liftM (.ok a : Except Interruption α) : ToolM α) >>= f).ends vars = (f a).ends vars := rfl

/-- A call of a service that is interrupted. -/
theorem ends_liftM_error_bind (cause : Interruption) (f : α → ToolM β) :
    ((liftM (.error cause : Except Interruption α) : ToolM α) >>= f).ends vars =
      (.error cause, vars) := rfl

theorem ends_recordReturnedChunkIds_bind (ids : List String) (f : Unit → ToolM β) :
    (recordReturnedChunkIds ids >>= f).ends vars =
      (f ()).ends { vars with returnedChunkIds := vars.returnedChunkIds.map fun _ => ids } := rfl

theorem ends_recordWorkspaceIds_bind (ids : List String) (f : Unit → ToolM β) :
    (recordWorkspaceIds ids >>= f).ends vars =
      (f ()).ends
        { vars with reportedWorkspaceIds := vars.reportedWorkspaceIds.map fun _ => ids } := rfl

end ToolM

/-! ## Texts -/

/-- A text that starts with `Error:` does so whatever follows it. -/
theorem startsWithError_append {text : String} (h : startsWithError text = true)
    (rest : String) : startsWithError (text ++ rest) = true := by
  unfold startsWithError at h ⊢
  rw [List.isPrefixOf_iff_prefix] at h ⊢
  rw [String.toList_append]
  exact h.trans (List.prefix_append _ _)

/-- A text with another first character does not start with `Error:`. -/
theorem not_startsWithError {text : String} {c : Char} (h : text.toList.head? = some c)
    (hc : c ≠ 'E') : startsWithError text = false := by
  unfold startsWithError
  cases htext : text.toList with
  | nil => rfl
  | cons d rest =>
    rw [htext, List.head?_cons, Option.some.injEq] at h
    subst h
    have hhead : "Error:".toList = 'E' :: "rror:".toList := rfl
    rw [hhead, List.isPrefixOf_cons_cons, beq_eq_false_iff_ne.mpr hc.symm, Bool.false_and]

/-- The first character of a text is that of its beginning. -/
theorem head?_append {text : String} {c : Char} (h : text.toList.head? = some c)
    (rest : String) : (text ++ rest).toList.head? = some c := by
  rw [String.toList_append, List.head?_append, h, Option.some_or]

/-- `rstrip` keeps the first character of a text that starts with one that is no blank. -/
theorem head?_rstripText {text : String} {c : Char} (h : text.toList.head? = some c)
    (hc : PyStr.isSpace c = false) : (rstripText text).toList.head? = some c := by
  rw [rstripText, String.toList_ofList]
  cases htext : text.toList with
  | nil =>
    rw [htext] at h
    cases h
  | cons d rest =>
    rw [htext, List.head?_cons, Option.some.injEq] at h
    subst h
    rw [PyStr.rstrip, PyStr.lstrip, List.reverse_cons, List.dropWhile_append]
    -- what is dropped ends before the first character
    have hkept : List.dropWhile PyStr.isSpace [d] = [d] := by
      rw [List.dropWhile_cons, if_neg (by simp [hc])]
    split
    · rw [hkept]
      rfl
    · rw [List.reverse_append]
      rfl

/-- A number starts with a digit. -/
theorem exists_head?_toString (n : Nat) :
    ∃ c, (toString n).toList.head? = some c ∧ c ≠ 'E' := by
  have hdigits : (toString n).toList = Nat.toDigits 10 n := by
    rw [Nat.toString_eq_ofList_toDigits, String.toList_ofList]
  rw [hdigits]
  cases hcons : Nat.toDigits 10 n with
  | nil => exact absurd hcons Nat.toDigits_ne_nil
  | cons c rest =>
    refine ⟨c, rfl, ?_⟩
    have hdigit : c.isDigit := Nat.isDigit_of_mem_toDigits (b := 10) (n := n) (by decide)
      (by decide) (hcons ▸ List.mem_cons_self)
    rintro rfl
    revert hdigit
    decide

/-! ## Searching -/

variable {services : ToolServices} {keyInfo : McpKeyInfo} {arguments : ToolArguments}

/-- A search over all workspaces of a key that is authorized for none. -/
def NoWorkspaces (services : ToolServices) (keyInfo : McpKeyInfo) (arguments : ToolArguments) :
    Prop :=
  arguments.query ≠ "" ∧ arguments.workspaceId = "" ∧
    services.authorizedWorkspaceIds keyInfo = .ok []

/-- Such a search gives up with a text that does not say that it is an error. -/
theorem runSearch_of_noWorkspaces {capture : Bool}
    (h : NoWorkspaces services keyInfo arguments) :
    runSearch services keyInfo arguments capture =
      .ok (.error "No workspaces found. Upload documents to create a workspace.") := by
  obtain ⟨hquery, hworkspace, hauthorized⟩ := h
  simp [runSearch, getWorkspaceIds, hquery, hworkspace, hauthorized, bind, Except.bind, pure,
    Except.pure]

/-- What a call that returns has gone through. -/
private theorem exists_of_bind_eq_ok {ε α β : Type} {x : Except ε α} {f : α → Except ε β} {b : β}
    (h : (x >>= f) = .ok b) : ∃ a, x = .ok a ∧ f a = .ok b := by
  cases x with
  | error e => cases h
  | ok a => exact ⟨a, rfl, h⟩

/-- The loop gives up with the error text of a tag filter. -/
theorem startsWithError_of_searchWorkspaces {request : ToolSearchRequest} {capture : Bool}
    {eventId : Option String} {workspaceIds : List String} {message : String}
    (h : searchWorkspaces services keyInfo request capture eventId workspaceIds =
      .ok (.error message)) : startsWithError message = true := by
  induction workspaceIds generalizing eventId with
  | nil => cases h
  | cons workspaceId rest ih =>
    rw [searchWorkspaces] at h
    obtain ⟨tenantUserId, -, h⟩ := exists_of_bind_eq_ok h
    cases hsearch : services.search workspaceId tenantUserId request with
    | interrupted cause =>
      rw [hsearch] at h
      cases h
    | tagFilterError message' =>
      rw [hsearch] at h
      obtain rfl := Except.error.inj (Except.ok.inj h)
      exact startsWithError_append (by decide) _
    | results results =>
      rw [hsearch] at h
      obtain ⟨eventId', -, h⟩ := exists_of_bind_eq_ok h
      obtain ⟨answer, hrest, h⟩ := exists_of_bind_eq_ok h
      cases answer with
      | error message' =>
        obtain rfl := Except.error.inj (Except.ok.inj h)
        exact ih hrest
      | ok found => cases h

/-- Any other text that a search gives up with starts with `Error:`. -/
theorem startsWithError_of_runSearch {capture : Bool} {message : String}
    (h : runSearch services keyInfo arguments capture = .ok (.error message))
    (hsome : ¬ NoWorkspaces services keyInfo arguments) : startsWithError message = true := by
  unfold runSearch at h
  split at h
  · obtain rfl := Except.error.inj (Except.ok.inj h)
    decide
  · rename_i hquery
    obtain ⟨answer, hworkspaces, h⟩ := exists_of_bind_eq_ok h
    cases answer with
    | error message' =>
      obtain rfl := Except.error.inj (Except.ok.inj h)
      unfold getWorkspaceIds at hworkspaces
      obtain ⟨authorized, hauthorized, hworkspaces⟩ := exists_of_bind_eq_ok hworkspaces
      split at hworkspaces
      · split at hworkspaces
        · obtain rfl := Except.error.inj (Except.ok.inj hworkspaces)
          exact startsWithError_append (by decide) _
        · cases hworkspaces
      · rename_i hworkspace
        split at hworkspaces
        · -- the search without a workspace
          rename_i hnil
          exact absurd ⟨hquery, not_not.mp hworkspace, hnil ▸ hauthorized⟩ hsome
        · cases hworkspaces
    | ok workspaceIds =>
      cases hrequest : buildSearchRequest arguments with
      | none =>
        rw [hrequest] at h
        cases h
      | some request =>
        rw [hrequest] at h
        obtain ⟨answer, hsearch, h⟩ := exists_of_bind_eq_ok h
        cases answer with
        | error message' =>
          obtain rfl := Except.error.inj (Except.ok.inj h)
          exact startsWithError_of_searchWorkspaces hsearch
        | ok found => cases h

/-- A text that a document tool gives up with starts with `Error:`. -/
theorem startsWithError_of_resolveDocumentForUser {documentId message : String}
    (h : resolveDocumentForUser services keyInfo documentId = .ok (.error message)) :
    startsWithError message = true := by
  have hnotFound : startsWithError ("Error: Document '" ++ documentId ++ "' not found") = true :=
    startsWithError_append (startsWithError_append (by decide) _) _
  unfold resolveDocumentForUser at h
  obtain ⟨found, -, h⟩ := exists_of_bind_eq_ok h
  cases found with
  | none =>
    obtain rfl := Except.error.inj (Except.ok.inj h)
    exact hnotFound
  | some document =>
    obtain ⟨authorized, -, h⟩ := exists_of_bind_eq_ok h
    split at h
    · obtain rfl := Except.error.inj (Except.ok.inj h)
      exact hnotFound
    · cases h

/-! ## How the handlers end -/

/-- The ids of the chunks whose content or citation the entries of a result show. -/
def ToolPayload.chunkIds : ToolPayload → List String
  | .search _ results _ _ => truthyIds (results.map fun item => item.2.chunkId)
  | .citations _ cited _ => truthyIds (cited.map fun item => item.2.chunkId)
  | .context _ window => window.chunks.map PublicChunk.id
  | .chunks listed => listed.map PublicChunk.id
  | .profile _ results _ => truthyIds (results.map ToolSearchResult.chunkId)

/-- The end of a retrieval handler; `unmarked` says that it gives up with a text that does not
    start with `Error:`. -/
inductive HandlerEnd (services : ToolServices) (unmarked : Prop) :
    Except Interruption (List ToolText) × AuditVars → Prop where
  | interrupted (cause : Interruption) (vars : AuditVars) (hmarked : ¬ unmarked) :
    HandlerEnd services unmarked (.error cause, vars)
  | gaveUp (text : String) (vars : AuditVars) (htext : startsWithError text = true ↔ ¬ unmarked) :
    HandlerEnd services unmarked (.ok [.plain text], vars)
  | result (summary : String) (payload : ToolPayload) (vars : AuditVars) (hmarked : ¬ unmarked)
    (htext : startsWithError ((ToolText.structured summary payload).text services) = false)
    (hids : vars.returnedChunkIds = some payload.chunkIds) :
    HandlerEnd services unmarked (.ok [.structured summary payload], vars)

/-- A result under a summary whose first character is not that of `Error:`. -/
private theorem HandlerEnd.of_summary {unmarked : Prop} {summary : String} {c : Char}
    {payload : ToolPayload} {vars : AuditVars} (hmarked : ¬ unmarked)
    (h : summary.toList.head? = some c) (hc : c ≠ 'E')
    (hids : vars.returnedChunkIds = some payload.chunkIds) :
    HandlerEnd services unmarked (.ok [.structured summary payload], vars) := by
  refine .result summary payload vars hmarked ?_ hids
  exact not_startsWithError (head?_append (head?_append (head?_append h _) _) _) hc

/-- A text that starts with `Error:`. -/
private theorem HandlerEnd.of_error {text : String} {vars : AuditVars}
    (h : startsWithError text = true) :
    HandlerEnd services False (.ok [.plain text], vars) :=
  .gaveUp text vars (iff_of_true h not_false)

/-- The end of a handler that gives up exactly where `runSearch` does. -/
private theorem HandlerEnd.of_runSearch {capture : Bool} {message : String} {vars : AuditVars}
    (h : runSearch services keyInfo arguments capture = .ok (.error message)) :
    HandlerEnd services (NoWorkspaces services keyInfo arguments) (.ok [.plain message], vars) := by
  refine .gaveUp message vars ⟨?_, startsWithError_of_runSearch h⟩
  intro hmessage hnone
  rw [runSearch_of_noWorkspaces hnone, Except.ok.injEq, Except.error.injEq] at h
  subst h
  revert hmessage
  decide

/-- A search that does not give up has a workspace to search in. -/
private theorem not_noWorkspaces (capture : Bool)
    (h : ∀ message, runSearch services keyInfo arguments capture ≠ .ok (.error message)) :
    ¬ NoWorkspaces services keyInfo arguments := fun hnone =>
  h _ (runSearch_of_noWorkspaces hnone)

/-- A handler that first searches. -/
private theorem handlerEnd_ofSearch {capture : Bool} {f : ToolSearch → ToolM (List ToolText)}
    {vars : AuditVars}
    (h : ¬ NoWorkspaces services keyInfo arguments → ∀ run,
      HandlerEnd services (NoWorkspaces services keyInfo arguments) ((f run).ends vars)) :
    HandlerEnd services (NoWorkspaces services keyInfo arguments) (ToolM.ends (do
      match ← runSearch services keyInfo arguments capture with
      | .error message => return [.plain message]
      | .ok run => f run) vars) := by
  cases hsearch : runSearch services keyInfo arguments capture with
  | error cause =>
    rw [ToolM.ends_liftM_error_bind]
    exact .interrupted cause _ (not_noWorkspaces capture (by simp [hsearch]))
  | ok answer =>
    rw [ToolM.ends_liftM_ok_bind]
    cases answer with
    | error message => exact .of_runSearch hsearch
    | ok run => exact h (not_noWorkspaces capture (by simp [hsearch])) run

theorem handlerEnd_handleSearch :
    HandlerEnd services (NoWorkspaces services keyInfo arguments)
      ((handleSearch services keyInfo arguments).ends
        ⟨some [], some []⟩) := by
  refine handlerEnd_ofSearch ?_
  intro hmarked run
  dsimp only
  rw [ToolM.ends_recordReturnedChunkIds_bind, ToolM.ends_recordWorkspaceIds_bind]
  split
  · exact .of_summary hmarked (head?_append (head?_append (c := 'N') rfl _) _) (by decide) rfl
  · refine .of_summary hmarked (head?_rstripText (c := 'F') ?_ (by decide)) (by decide) rfl
    simp only [String.append_assoc]
    exact head?_append rfl _

theorem handlerEnd_handleGetCitations :
    HandlerEnd services (NoWorkspaces services keyInfo arguments)
      ((handleGetCitations services keyInfo arguments).ends
        ⟨some [], some []⟩) := by
  refine handlerEnd_ofSearch ?_
  intro hmarked run
  dsimp only
  rw [ToolM.ends_recordReturnedChunkIds_bind, ToolM.ends_recordWorkspaceIds_bind]
  split
  · exact .of_summary hmarked (head?_append (c := 'N') rfl _) (by decide) rfl
  · refine .of_summary hmarked (head?_rstripText (c := 'F') ?_ (by decide)) (by decide) rfl
    simp only [String.append_assoc]
    exact head?_append rfl _

/-- A handler that first resolves the document of the call. -/
private theorem handlerEnd_ofDocument {f : ToolDocument → ToolM (List ToolText)}
    {vars : AuditVars} (h : ∀ document, HandlerEnd services False ((f document).ends vars)) :
    HandlerEnd services False (ToolM.ends (do
      if arguments.documentId = "" then return [.plain "Error: Document ID is required"]
      else
        match ← resolveDocumentForUser services keyInfo arguments.documentId with
        | .error message => return [.plain message]
        | .ok document => f document) vars) := by
  split
  · exact .of_error (by decide)
  · cases hdocument : resolveDocumentForUser services keyInfo arguments.documentId with
    | error cause =>
      rw [ToolM.ends_liftM_error_bind]
      exact .interrupted cause _ not_false
    | ok answer =>
      rw [ToolM.ends_liftM_ok_bind]
      cases answer with
      | error message => exact .of_error (startsWithError_of_resolveDocumentForUser hdocument)
      | ok document => exact h document

theorem handlerEnd_handleGetContextTool :
    HandlerEnd services False
      ((handleGetContextTool services keyInfo arguments).ends ⟨some [], some []⟩) := by
  refine handlerEnd_ofDocument ?_
  intro document
  cases services.chunksByDocId arguments.documentId with
  | error cause =>
    rw [ToolM.ends_liftM_error_bind]
    exact .interrupted cause _ not_false
  | ok chunks =>
    rw [ToolM.ends_liftM_ok_bind]
    dsimp only
    rw [ToolM.ends_recordReturnedChunkIds_bind, ToolM.ends_recordWorkspaceIds_bind]
    refine .of_summary (c := '#') not_false ?_ (by decide) rfl
    simp only [String.append_assoc]
    exact head?_append rfl _

theorem handlerEnd_handleListChunks :
    HandlerEnd services False
      ((handleListChunks services keyInfo arguments).ends ⟨some [], some []⟩) := by
  refine handlerEnd_ofDocument ?_
  intro document
  cases services.chunksByDocId document.id with
  | error cause =>
    rw [ToolM.ends_liftM_error_bind]
    exact .interrupted cause _ not_false
  | ok chunks =>
    rw [ToolM.ends_liftM_ok_bind, ToolM.ends_recordReturnedChunkIds_bind,
      ToolM.ends_recordWorkspaceIds_bind]
    obtain ⟨c, hhead, hc⟩ := exists_head?_toString chunks.length
    refine .of_summary not_false ?_ hc rfl
    exact head?_append (head?_append (head?_append hhead _) _) _

theorem handlerEnd_profileHandler {profile : ToolProfile} {workspaceId : String} :
    HandlerEnd services False
      ((profileHandler services profile workspaceId keyInfo arguments).ends
        ⟨some [], some []⟩) := by
  unfold profileHandler
  split
  · exact .of_error (by decide)
  · split
    · exact .interrupted _ _ not_false
    · rename_i request _
      cases services.dataPlaneUserId workspaceId keyInfo.userId with
      | error cause =>
        rw [ToolM.ends_liftM_error_bind]
        exact .interrupted cause _ not_false
      | ok tenantUserId =>
        rw [ToolM.ends_liftM_ok_bind]
        cases services.search workspaceId tenantUserId request with
        | interrupted cause => exact .interrupted cause _ not_false
        | tagFilterError message => exact .of_error (startsWithError_append (by decide) _)
        | results results =>
          dsimp only
          rw [ToolM.ends_recordReturnedChunkIds_bind, ToolM.ends_recordWorkspaceIds_bind]
          split
          · exact .of_summary not_false (head?_append (c := 'N') rfl _) (by decide) rfl
          · refine .of_summary not_false (head?_rstripText (c := 'F') ?_ (by decide)) (by decide)
              rfl
            simp only [String.append_assoc]
            exact head?_append rfl _

end Inherent
