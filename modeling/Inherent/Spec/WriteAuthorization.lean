import Inherent.Native.WorkspaceAccess

/-!
# Write authorization follows the members list

A write is granted on a workspace exactly when the lookups leave it as a candidate and the
request selects it.  The candidates of a user-scoped key come from the Mongo listing and
from upload rows; an upload row of a workspace with members is only dropped when both
Mongo lookups of the listing succeed, and the viewer lookup takes out viewers only.
-/

namespace Inherent

variable {ObjectId : Type} {codec : ObjectIdCodec ObjectId}

namespace ObjectIdCodec

variable (codec)

/-- A stored id is a variant of its own text. -/
theorem mem_variants_strId (id : BsonId ObjectId) : id ∈ codec.variants (codec.strId id) := by
  cases id with
  | string s => simp [strId, variants]
  | objectId o => simp [strId, variants, codec.parse_str]

/-- The text is spelled as `str` spells it, if it is one of an `ObjectId` at all. -/
def Canonical (s : String) : Prop := ∀ o, codec.parse s = some o → codec.str o = s

/-- The variants of a text that is spelled so are the ids with that text. -/
theorem strId_of_mem_variants {s : String} (hs : codec.Canonical s) {id : BsonId ObjectId}
    (h : id ∈ codec.variants s) : codec.strId id = s := by
  simp only [variants, List.mem_cons, Option.mem_toList, Option.map_eq_some_iff] at h
  rcases h with rfl | ⟨o, ho, rfl⟩
  · rfl
  · exact hs o ho

end ObjectIdCodec

/-- The element names the user, with a role in `VALID_ROLES`. -/
def MemberEntry.Recognised (codec : ObjectIdCodec ObjectId) (userId : String) :
    MemberEntry ObjectId → Prop
  | .dict entryUser role =>
    codec.strId? entryUser = userId ∧ (role.bind WorkspaceRole.ofString?).isSome
  | .other => False

/-- Documents with the same text for an id are one document. -/
theorem WorkspaceCollection.eq_of_key_eq (workspaces : WorkspaceCollection codec)
    {d d' : WorkspaceDoc ObjectId} (hd : d ∈ workspaces.docs) (hd' : d' ∈ workspaces.docs)
    (h : d.key codec = d'.key codec) : d = d' := by
  apply workspaces.single (d.key codec) d hd d' hd' (codec.mem_variants_strId d.id)
  rw [h]
  exact codec.mem_variants_strId d'.id

namespace AccessState

variable [DecidableEq ObjectId] (state : AccessState codec) (lookups : Lookups)
  (userId : String)

/-! ## The candidates of a user-scoped key -/

/-- The Mongo listing yields the workspace. -/
def FromListing (ws : String) : Prop :=
  ∃ d ∈ state.listedDocs lookups.listing userId, d.key codec = ws

/-- An upload row of the user names the workspace, and is kept: either lookup of the listing
    fails, or the workspace has no document with a `members` field. -/
def FromUploads (ws : String) : Prop :=
  lookups.uploads = true ∧ (∃ row ∈ state.uploads, row.userId = userId ∧ row.workspaceId = ws) ∧
    ¬ (lookups.listing = .completes ∧ lookups.managed = true ∧
      ∃ d ∈ state.workspaces.docs, d.members.Exists ∧ d.key codec = ws)

/-- The viewer lookup finds the workspace. -/
def KnownReadOnly (ws : String) : Prop :=
  ∃ d ∈ state.workspaces.docs, d.isReadOnly codec userId = true ∧ d.key codec = ws

/-- The workspaces that the lookups leave to a user-scoped key that writes. -/
def Candidate (ws : String) : Prop :=
  (state.FromListing lookups userId ws ∨ state.FromUploads lookups userId ws) ∧
    ¬ state.KnownReadOnly userId ws

/-- The workspace that the request selects: the one of the header, or without a header the
    only candidate. -/
def Requested (header : Option String) (ws : String) : Prop :=
  match header.filter (· ≠ "") with
  | some requested => requested = ws
  | none => ∀ other, state.Candidate lookups userId other → other = ws

omit [DecidableEq ObjectId] in
theorem mem_uploadIds {ws : String} :
    ws ∈ state.uploadIds userId ↔
      ∃ row ∈ state.uploads, row.userId = userId ∧ row.workspaceId = ws := by
  simp only [uploadIds, List.mem_dedup, List.mem_map, List.mem_filter, decide_eq_true_eq,
    and_assoc]

/-- Of workspaces it is asked about, the membership lookup returns those with `members`. -/
theorem mem_membershipManagedWorkspaceIds {managed : Bool} {workspaceIds : List String}
    {ws : String} (hws : ws ∈ workspaceIds) :
    ws ∈ state.membershipManagedWorkspaceIds managed workspaceIds ↔
      managed = true ∧ ∃ d ∈ state.workspaces.docs, d.members.Exists ∧ d.key codec = ws := by
  unfold membershipManagedWorkspaceIds
  cases managed with
  | false => simp
  | true =>
    simp only [if_true, List.mem_map, List.mem_filter, decide_eq_true_eq, true_and]
    constructor
    · rintro ⟨d, ⟨hd, -, hmembers⟩, hkey⟩
      exact ⟨d, hd, hmembers, hkey⟩
    · rintro ⟨d, hd, hmembers, rfl⟩
      have hid : d.id ∈ workspaceIds.flatMap codec.variants :=
        List.mem_flatMap.mpr ⟨_, hws, codec.mem_variants_strId d.id⟩
      exact ⟨d, ⟨hd, hid, hmembers⟩, rfl⟩

theorem mem_getUserWorkspaceIds {ws : String} :
    ws ∈ state.getUserWorkspaceIds lookups userId ↔
      state.FromListing lookups userId ws ∨ state.FromUploads lookups userId ws := by
  have hlisted : ws ∈ (state.listedDocs lookups.listing userId).map (·.key codec) ↔
      state.FromListing lookups userId ws := List.mem_map
  have huploads : ws ∈ (if lookups.uploads then state.uploadIds userId else []) ↔
      lookups.uploads = true ∧
        ∃ row ∈ state.uploads, row.userId = userId ∧ row.workspaceId = ws := by
    cases lookups.uploads <;> simp [mem_uploadIds]
  unfold getUserWorkspaceIds
  simp only [List.mem_append, hlisted]
  by_cases hmongo : state.FromListing lookups userId ws
  · simp only [hmongo, true_or]
  · simp only [hmongo, false_or, FromUploads]
    rw [← and_assoc, ← huploads]
    -- the upload rows that the listing does not name
    have honly : ws ∈ ((if lookups.uploads then state.uploadIds userId else []).filter fun ws =>
          ws ∉ (state.listedDocs lookups.listing userId).map (·.key codec)) ↔
        ws ∈ (if lookups.uploads then state.uploadIds userId else []) := by
      rw [List.mem_filter, decide_eq_true_eq, hlisted]
      exact and_iff_left hmongo
    by_cases hlisting : lookups.listing = .completes
    · rw [if_pos hlisting, List.mem_filter, honly, decide_eq_true_eq]
      apply and_congr_right
      intro hupload
      rw [state.mem_membershipManagedWorkspaceIds (honly.mpr hupload)]
      simp only [hlisting, true_and]
    · rw [if_neg hlisting, honly]
      simp only [hlisting, false_and, not_false_eq_true, and_true]

/-- The list of a set has no duplicates. -/
theorem nodup_getUserWorkspaceIds : (state.getUserWorkspaceIds lookups userId).Nodup := by
  have hdocs : (state.listedDocs lookups.listing userId).Sublist state.workspaces.docs := by
    unfold listedDocs
    cases lookups.listing with
    | completes => exact List.filter_sublist
    | raises n => exact (List.take_sublist _ _).trans List.filter_sublist
  have hmongo : ((state.listedDocs lookups.listing userId).map (·.key codec)).Nodup := by
    apply List.Nodup.map_on _ (state.workspaces.nodup.sublist hdocs)
    intro d hd d' hd' hkey
    exact state.workspaces.eq_of_key_eq (hdocs.subset hd) (hdocs.subset hd') hkey
  have huploads : (if lookups.uploads then state.uploadIds userId else []).Nodup := by
    split
    · exact List.nodup_dedup _
    · exact List.nodup_nil
  unfold getUserWorkspaceIds
  simp only
  apply List.Nodup.append hmongo
  · split
    · exact (huploads.filter _).filter _
    · exact huploads.filter _
  · -- an upload row that the listing names is not taken twice
    intro ws hlisted hupload
    split at hupload
    · have hnot := (List.mem_filter.mp (List.mem_filter.mp hupload).1).2
      exact of_decide_eq_true hnot hlisted
    · have hnot := (List.mem_filter.mp hupload).2
      exact of_decide_eq_true hnot hlisted

/-- A resolution for a write grants the workspace. -/
def Grants (keyInfo : APIKeyInfo) (header : Option String) (required : Bool) (ws : String) :
    Prop :=
  ∃ auth, resolveWorkspace state lookups keyInfo header required .write = .ok auth ∧
    auth.workspaceId = some ws

/-! ## What a resolution grants -/

/-- The only element of a list without duplicates. -/
private theorem eq_singleton_iff {l : List String} (hnodup : l.Nodup) {ws : String} :
    l = [ws] ↔ ws ∈ l ∧ ∀ other ∈ l, other = ws := by
  constructor
  · rintro rfl
    simp
  · rintro ⟨hmem, hall⟩
    exact List.perm_singleton.mp ((List.perm_ext_iff_of_nodup hnodup (by simp)).mpr fun other =>
      ⟨fun h => List.mem_singleton.mpr (hall other h), fun h => List.mem_singleton.mp h ▸ hmem⟩)

variable {state lookups userId} {keyInfo : APIKeyInfo} {header : Option String}
  {required : Bool} {ws : String}

theorem mem_readOnly_iff :
    ws ∈ (state.workspaces.docs.filter fun d => d.isReadOnly codec userId).map (·.key codec) ↔
      state.KnownReadOnly userId ws := by
  simp only [List.mem_map, List.mem_filter, KnownReadOnly, and_assoc]

/-- A user-scoped key writes to the candidates, if the viewer lookup succeeds. -/
theorem getAuthorizedWorkspaceIds_of_unbound (state : AccessState codec) (lookups : Lookups)
    (hbound : keyInfo.boundWorkspace? = none) :
    (lookups.readOnly = false ∧
      getAuthorizedWorkspaceIds state lookups keyInfo .write = .error .lookup) ∨
    (lookups.readOnly = true ∧ ∃ authorized : List String, authorized.Nodup ∧
      getAuthorizedWorkspaceIds state lookups keyInfo .write = .ok authorized ∧
      ∀ ws, ws ∈ authorized ↔ state.Candidate lookups keyInfo.userId ws) := by
  unfold getAuthorizedWorkspaceIds
  rw [hbound]
  unfold getReadOnlyWorkspaceIdsInMongo
  cases lookups.readOnly with
  | false => exact Or.inl ⟨rfl, rfl⟩
  | true =>
    refine Or.inr ⟨rfl, _, ?_, rfl, fun ws => ?_⟩
    · exact (state.nodup_getUserWorkspaceIds lookups keyInfo.userId).filter _
    · rw [List.mem_filter, decide_eq_true_eq, mem_readOnly_iff, mem_getUserWorkspaceIds]
      rfl

/-- A denial never returns. -/
theorem deny_ne_ok {detail : String} {permission : AccessPermission} {auth : ResolvedAuth} :
    deny state lookups keyInfo ws permission detail ≠ .ok auth := by
  intro h
  unfold deny at h
  cases permission with
  | read => cases h
  | write =>
    cases hviewer : viewerWriteDenial state lookups keyInfo ws with
    | error e => simp [hviewer, bind, Except.bind] at h
    | ok viewerDetail =>
      simp [hviewer, bind, Except.bind, throw, throwThe, MonadExceptOf.throw] at h

/-- What a user-scoped key is granted: the candidate that the request selects. -/
theorem grants_of_unbound (hbound : keyInfo.boundWorkspace? = none) :
    state.Grants lookups keyInfo header required ws ↔
      lookups.readOnly = true ∧ state.Candidate lookups keyInfo.userId ws ∧
        state.Requested lookups keyInfo.userId header ws := by
  unfold Grants resolveWorkspace
  rw [hbound]
  rcases getAuthorizedWorkspaceIds_of_unbound state lookups hbound with
    ⟨hfails, hauthorized⟩ | ⟨hreads, authorized, hnodup, hauthorized, hmem⟩
  · rw [hauthorized]
    simp [hfails, bind, Except.bind]
  · simp only [hauthorized, bind, Except.bind, hreads, true_and, Requested]
    cases header.filter (· ≠ "") with
    | some requested =>
      simp only
      split
      · rename_i hauth
        simp only [pure, Except.pure, Except.ok.injEq, exists_eq_left', Option.some.injEq]
        constructor
        · rintro rfl
          exact ⟨(hmem _).mp hauth, rfl⟩
        · exact And.right
      · rename_i hauth
        constructor
        · rintro ⟨auth, hdeny, -⟩
          exact absurd hdeny deny_ne_ok
        · rintro ⟨hcandidate, rfl⟩
          exact absurd ((hmem _).mpr hcandidate) hauth
    | none =>
      -- without a header the candidates must be one workspace
      simp only [← hmem]
      rw [← eq_singleton_iff hnodup]
      cases authorized with
      | nil => cases required <;> simp [pure, Except.pure, throw, throwThe, MonadExceptOf.throw]
      | cons only rest =>
        cases rest with
        | nil => cases required <;> simp [pure, Except.pure]
        | cons second rest =>
          cases required <;> simp [pure, Except.pure, throw, throwThe, MonadExceptOf.throw]

/-- The role lookup reads the role from a document of the workspace. -/
theorem exists_of_getWorkspaceRoleInMongo {succeeds : Bool} {role : WorkspaceRole}
    (h : state.getWorkspaceRoleInMongo succeeds userId ws = .ok (some role)) :
    ∃ d ∈ state.workspaces.docs, d.id ∈ codec.variants ws ∧
      d.roleInWorkspaceDoc codec userId = some role := by
  unfold getWorkspaceRoleInMongo at h
  split at h
  · obtain ⟨d, hfind, hrole⟩ := Option.bind_eq_some_iff.mp (Except.ok.inj h)
    have hfound := List.find?_some hfind
    simp only [Bool.decide_and, Bool.and_eq_true, decide_eq_true_eq] at hfound
    exact ⟨d, List.mem_of_find?_eq_some hfind, hfound.1, hrole⟩
  · cases h

/-- A bound key writes to its workspace when a document of it gives the user a writing
    role. -/
theorem mayWrite_of_mem_authorized {bound : String} {authorized : List String}
    (hbound : keyInfo.boundWorkspace? = some bound)
    (hauthorized : getAuthorizedWorkspaceIds state lookups keyInfo .write = .ok authorized)
    (hmem : bound ∈ authorized) :
    ∃ d ∈ state.workspaces.docs, d.id ∈ codec.variants bound ∧
      d.MayWrite codec keyInfo.userId := by
  unfold getAuthorizedWorkspaceIds userCanAccessWorkspaceInMongo at hauthorized
  rw [hbound] at hauthorized
  cases hlookup : state.getWorkspaceRoleInMongo lookups.role keyInfo.userId bound with
  | error e => simp [hlookup, bind, Except.bind] at hauthorized
  | ok role? =>
    cases role? with
    | none =>
      simp only [hlookup, bind, Except.bind, pure, Except.pure, Except.ok.injEq] at hauthorized
      simp [← hauthorized] at hmem
    | some role =>
      obtain ⟨d, hd, hid, hrole⟩ := exists_of_getWorkspaceRoleInMongo hlookup
      simp only [hlookup, bind, Except.bind, pure, Except.pure, Except.ok.injEq, decide_true,
        if_true] at hauthorized
      cases hwrites : role.mayWrite with
      | true => exact ⟨d, hd, hid, by simp [WorkspaceDoc.MayWrite, hrole, hwrites]⟩
      | false => simp [← hauthorized, hwrites] at hmem

/-- What a key bound to a workspace is granted is that workspace, for a writing role. -/
theorem grants_of_bound {bound : String} (hbound : keyInfo.boundWorkspace? = some bound)
    (h : state.Grants lookups keyInfo header required ws) :
    ws = bound ∧ ∃ d ∈ state.workspaces.docs, d.id ∈ codec.variants bound ∧
      d.MayWrite codec keyInfo.userId := by
  obtain ⟨auth, hresolve, hws⟩ := h
  unfold resolveWorkspace at hresolve
  rw [hbound] at hresolve
  cases hauthorized : getAuthorizedWorkspaceIds state lookups keyInfo .write with
  | error e => simp [hauthorized, bind, Except.bind] at hresolve
  | ok authorized =>
    simp only [hauthorized, bind, Except.bind] at hresolve
    split at hresolve
    · cases hresolve
    · split at hresolve
      · exact absurd hresolve deny_ne_ok
      · rename_i _ hmem
        simp only [pure, Except.pure, Except.ok.injEq] at hresolve
        subst hresolve
        exact ⟨(Option.some.inj hws).symm,
          mayWrite_of_mem_authorized hbound hauthorized (not_not.mp hmem)⟩

end AccessState

/-! ## Who may write -/

section

variable [DecidableEq ObjectId]

/-- A granted workspace with a members list gives the user a writing role, and a key bound
    to one workspace is granted no other. -/
structure FollowsMembers (state : AccessState codec) (lookups : Lookups) (keyInfo : APIKeyInfo)
    (header : Option String) (required : Bool) : Prop where
  members : ∀ ws, state.Grants lookups keyInfo header required ws →
    ∀ d ∈ state.workspaces.docs, d.id ∈ codec.variants ws →
      ∀ entries, d.members = .list entries → d.MayWrite codec keyInfo.userId
  bound : ∀ ws, state.Grants lookups keyInfo header required ws →
    ∀ bound, keyInfo.boundWorkspace? = some bound → ws = bound

/-- A user-scoped key whose viewer lookup succeeds reaches no requested workspace whose
    members list gives the user no writing role: the viewer lookup finds it, or neither the
    listing nor an upload row that is kept names it. -/
def CoversMembers (state : AccessState codec) (lookups : Lookups) (keyInfo : APIKeyInfo)
    (header : Option String) : Prop :=
  keyInfo.boundWorkspace? = none → lookups.readOnly = true →
    ∀ ws, state.Requested lookups keyInfo.userId header ws →
      ∀ d ∈ state.workspaces.docs, d.id ∈ codec.variants ws →
        ∀ entries, d.members = .list entries → ¬ d.MayWrite codec keyInfo.userId →
          state.KnownReadOnly keyInfo.userId ws ∨
            ¬ state.FromListing lookups keyInfo.userId ws ∧
              ¬ state.FromUploads lookups keyInfo.userId ws

/-- Write authorization follows the members list exactly when the lookups cover it. -/
theorem followsMembers_iff (state : AccessState codec) (lookups : Lookups)
    (keyInfo : APIKeyInfo) (header : Option String) (required : Bool) :
    FollowsMembers state lookups keyInfo header required ↔
      CoversMembers state lookups keyInfo header := by
  constructor
  · intro h hbound hreads ws hrequested d hd hid entries hmembers hwrite
    by_contra hreached
    rw [not_or, not_and_or, not_not, not_not] at hreached
    -- a candidate that the request selects is granted
    have hgrants : state.Grants lookups keyInfo header required ws :=
      (AccessState.grants_of_unbound hbound).mpr
        ⟨hreads, ⟨hreached.2, hreached.1⟩, hrequested⟩
    exact hwrite (h.members ws hgrants d hd hid entries hmembers)
  · intro h
    cases hbound : keyInfo.boundWorkspace? with
    | some bound =>
      refine ⟨?_, ?_⟩
      · intro ws hgrants d hd hid entries _
        obtain ⟨rfl, d', hd', hid', hwrite⟩ := AccessState.grants_of_bound hbound hgrants
        exact state.workspaces.single ws d' hd' d hd hid' hid ▸ hwrite
      · intro ws hgrants b hb
        obtain ⟨rfl, -⟩ := AccessState.grants_of_bound hbound hgrants
        exact Option.some.inj (hbound.symm.trans hb)
    | none =>
      refine ⟨?_, fun ws _ b hb => by rw [hbound] at hb; cases hb⟩
      intro ws hgrants d hd hid entries hmembers
      obtain ⟨hreads, ⟨hfrom, hviewer⟩, hrequested⟩ :=
        (AccessState.grants_of_unbound hbound).mp hgrants
      by_contra hwrite
      rcases h hbound hreads ws hrequested d hd hid entries hmembers hwrite with hknown | hnone
      · exact hviewer hknown
      · exact hfrom.elim hnone.1 hnone.2

/-! ### When the lookups succeed -/

omit [DecidableEq ObjectId] in
/-- The loop finds a role exactly when an element of the user has a recognised one. -/
theorem isSome_bestRole {userId : String} {entries : List (MemberEntry ObjectId)}
    {best : Option WorkspaceRole} :
    (WorkspaceDoc.bestRole codec userId entries best).isSome ↔
      best.isSome ∨ ∃ e ∈ entries, e.Recognised codec userId := by
  induction entries generalizing best with
  | nil => simp [WorkspaceDoc.bestRole]
  | cons entry entries ih =>
    rw [List.exists_mem_cons_iff]
    cases entry with
    | other => simp only [WorkspaceDoc.bestRole, ih, MemberEntry.Recognised, false_or]
    | dict entryUser role =>
      have hentry : (MemberEntry.dict entryUser role).Recognised codec userId ↔
          codec.strId? entryUser = userId ∧ (role.bind WorkspaceRole.ofString?).isSome :=
        Iff.rfl
      rw [hentry]
      unfold WorkspaceDoc.bestRole
      by_cases huser : codec.strId? entryUser = userId
      · cases hrole : role.bind WorkspaceRole.ofString? with
        | none => simp [huser, ih]
        | some r => cases best <;> simp [huser, ih]
      · simp [huser, ih]

/-- With a canonical user id the listing's filter matches only documents that give the user
    a role. -/
theorem isSome_role_of_accessFilter {d : WorkspaceDoc ObjectId} {userId : String}
    (hcanonical : codec.Canonical userId) (h : d.accessFilter codec userId = true) :
    (d.roleInWorkspaceDoc codec userId).isSome := by
  unfold WorkspaceDoc.roleInWorkspaceDoc
  split
  · rfl
  · rename_i howner
    rw [isSome_bestRole]
    rcases (Bool.or_eq_true _ _).mp h with h | h
    · -- the owner's id has the text of the user's
      obtain ⟨owner, hsome, hmem⟩ := (Option.any_eq_true _ _).mp h
      have hid := codec.strId_of_mem_variants hcanonical (of_decide_eq_true hmem)
      exact absurd (by rw [hsome, Option.map_some, hid]) howner
    · obtain ⟨e, he, helement⟩ := List.any_eq_true.mp h
      refine Or.inr ⟨e, he, ?_⟩
      split at helement
      · obtain ⟨hmem, hrole⟩ := (Bool.and_eq_true _ _).mp helement
        exact ⟨codec.strId_of_mem_variants hcanonical (of_decide_eq_true hmem), hrole⟩
      · cases helement

/-- A user with the viewer role is found by the viewer lookup. -/
theorem isReadOnly_of_role {d : WorkspaceDoc ObjectId} {userId : String}
    (hnone : userId ≠ "None") (h : d.roleInWorkspaceDoc codec userId = some .viewer) :
    d.isReadOnly codec userId = true := by
  have hbest := h
  unfold WorkspaceDoc.roleInWorkspaceDoc at hbest
  split at hbest
  · cases hbest
  · have hsome : (WorkspaceDoc.bestRole codec userId d.members.entries none).isSome := by
      rw [hbest]
      rfl
    obtain hnil | ⟨e, he, helement⟩ := isSome_bestRole.mp hsome
    · cases hnil
    · unfold WorkspaceDoc.isReadOnly WorkspaceDoc.hasElement
      rw [h, Bool.and_eq_true, List.any_eq_true]
      refine ⟨⟨e, he, ?_⟩, by simp⟩
      match e, helement with
      | .dict (some entryUser) role, helement =>
        have hmem : entryUser ∈ codec.variants userId :=
          helement.1 ▸ codec.mem_variants_strId entryUser
        simpa using hmem
      | .dict none role, helement => exact absurd helement.1.symm hnone

/-- When both Mongo calls of the listing succeed, and the ids are spelled as `str` spells
    them, the lookups cover the members lists. -/
theorem coversMembers_of_lookups (state : AccessState codec) (lookups : Lookups)
    (keyInfo : APIKeyInfo) (header : Option String)
    (hlisting : lookups.listing = .completes) (hmanaged : lookups.managed = true)
    (huser : codec.Canonical keyInfo.userId) (hnone : keyInfo.userId ≠ "None")
    (hrows : ∀ row ∈ state.uploads, codec.Canonical row.workspaceId) :
    CoversMembers state lookups keyInfo header := by
  intro _ _ ws _ d hd hid entries hmembers hwrite
  have huploads : ¬ state.FromUploads lookups keyInfo.userId ws := by
    rintro ⟨-, ⟨row, hrow, -, rfl⟩, hkept⟩
    have hkey := codec.strId_of_mem_variants (hrows row hrow) hid
    exact hkept ⟨hlisting, hmanaged, d, hd, by simp [hmembers, MembersField.Exists], hkey⟩
  by_cases hfrom : state.FromListing lookups keyInfo.userId ws
  · obtain ⟨d', hd', rfl⟩ := hfrom
    simp only [AccessState.listedDocs, hlisting, List.mem_filter] at hd'
    obtain rfl : d = d' :=
      state.workspaces.single _ d hd d' hd'.1 hid (codec.mem_variants_strId d'.id)
    -- the listing gives the user a role, and it is not one that writes
    have hrole := isSome_role_of_accessFilter huser hd'.2
    obtain ⟨role, hrole⟩ := Option.isSome_iff_exists.mp hrole
    have hviewer : role = .viewer := by
      cases role with
      | viewer => rfl
      | owner | admin | member => exact absurd (by simp [WorkspaceDoc.MayWrite, hrole,
          WorkspaceRole.mayWrite]) hwrite
    subst hviewer
    exact Or.inl ⟨d, hd, isReadOnly_of_role hnone hrole, rfl⟩
  · exact Or.inr ⟨hfrom, huploads⟩

end

/-- A workspace whose only member has been removed, and an upload that the member made. -/
def removedMember : AccessState noObjectIds where
  workspaces :=
    { docs := [{ id := .string "ws-1", userId := some (.string "u-owner"), members := .list [] }]
      nodup := by decide
      single := by
        intro s d hd d' hd' _ _
        rw [List.mem_singleton.mp hd, List.mem_singleton.mp hd'] }
  uploads := [{ workspaceId := "ws-1", userId := "u-member" }]

/-- The Mongo listing fails, and the viewer lookup after it succeeds. -/
def listingFails : Lookups :=
  { listing := .raises 0, uploads := true, managed := true, readOnly := true, role := true,
    denialRole := true }

/-- A removed member writes again while one Mongo call fails. -/
theorem not_followsMembers_removedMember :
    ¬ FollowsMembers removedMember listingFails
      { keyId := "key-1", userId := "u-member", workspaceId := none } (some "ws-1") true := by
  intro h
  have hgrants : removedMember.Grants listingFails
      { keyId := "key-1", userId := "u-member", workspaceId := none } (some "ws-1") true
      "ws-1" := ⟨_, rfl, rfl⟩
  have hwrite := h.members "ws-1" hgrants _ List.mem_cons_self (by decide) [] rfl
  exact absurd hwrite (by decide)

end Inherent
