import Inherent.Native.OauthIdentity

/-!
# Identities are not guessed

The lookup of a subject sees the first ten matching documents, and of these only the ones with an
id.  The others are hidden from it, and the subject is judged rightly if and only if none of them
would have mattered (`neverGuesses_iff`): a live one beside the only live document that the lookup
sees makes the subject ambiguous, and any one at all forbids the static map.
-/

namespace Inherent.OauthIdentity

variable {V : Type} {settings : IdentitySettings} {db : UserDatabase V} {claims : OAuthClaims}

/-- The live ones of some documents. -/
def live (settings : IdentitySettings) (docs : List (UserDocument V)) : List (UserDocument V) :=
  docs.filter fun doc => !isDeleted settings doc

/-- The matching documents that the lookup sees. -/
def visible (settings : IdentitySettings) (found : List (UserDocument V)) :
    List (UserDocument V) :=
  (found.take 10).filter (hasId settings)

/-- The matching documents that it does not see: without an id, or behind the tenth. -/
def hidden (settings : IdentitySettings) (found : List (UserDocument V)) :
    List (UserDocument V) :=
  ((found.take 10).filter fun doc => !hasId settings doc) ++ found.drop 10

/-- What a resolution says about the documents that match the subject. -/
structure NeverGuessed (settings : IdentitySettings) (db : UserDatabase V)
    (found : List (UserDocument V)) (step : IdentityStep) : Prop where
  lookedUp : ∀ userId, step = .lookedUp userId → ∃ doc, live settings found = [doc] ∧
    (doc settings.oauthSubjectLookupIdField).map db.str = some userId
  several : 2 ≤ (live settings found).length → step.userId = none
  deleted : found ≠ [] → live settings found = [] → step.userId = none
  staticMap : ∀ userId, step = .staticMap userId → found = []

/-- The lookup is enabled, the token does not carry the id, and the lookup finds these documents. -/
structure LookupReturns (settings : IdentitySettings) (db : UserDatabase V) (claims : OAuthClaims)
    (found : List (UserDocument V)) : Prop where
  enabled : settings.oauthSubjectLookupEnabled = true
  noClaim : userIdClaim settings claims = none
  returns : matching settings db claims.subject = .ok found

/-- When the lookup returns, the identity is not guessed. -/
def NeverGuesses (settings : IdentitySettings) (db : UserDatabase V) (claims : OAuthClaims) :
    Prop :=
  ∀ found, LookupReturns settings db claims found →
    ∃ step, resolveOauthUser settings db claims = .ok step ∧ NeverGuessed settings db found step

/-- No hidden document matters. -/
structure HiddenHarmless (settings : IdentitySettings) (found : List (UserDocument V)) :
    Prop where
  unique : (live settings (visible settings found)).length = 1 →
    ∀ doc ∈ hidden settings found, isDeleted settings doc = true
  empty : visible settings found = [] → hidden settings found = []

/-! ## What the lookup sees -/

theorem perm_visible_hidden (settings : IdentitySettings) (found : List (UserDocument V)) :
    found.Perm (visible settings found ++ hidden settings found) := by
  have hsplit : (found.take 10).Perm (visible settings found ++
      (found.take 10).filter fun doc => !hasId settings doc) :=
    (List.filter_append_perm (hasId settings) (found.take 10)).symm
  rw [hidden, ← List.append_assoc]
  conv_lhs => rw [← List.take_append_drop 10 found]
  exact hsplit.append_right _

theorem perm_live (settings : IdentitySettings) (found : List (UserDocument V)) :
    (live settings found).Perm
      (live settings (visible settings found) ++ live settings (hidden settings found)) := by
  rw [live, live, live, ← List.filter_append]
  exact (perm_visible_hidden settings found).filter _

theorem live_hidden_eq_nil_iff {found : List (UserDocument V)} :
    live settings (hidden settings found) = [] ↔
      ∀ doc ∈ hidden settings found, isDeleted settings doc = true := by
  rw [live, List.filter_eq_nil_iff]
  simp

/-- A document as the entry of the matches. -/
def entry (settings : IdentitySettings) (db : UserDatabase V) (doc : UserDocument V) :
    Option (String × Bool) :=
  (doc settings.oauthSubjectLookupIdField).map fun rawId => (db.str rawId, isDeleted settings doc)

/-- A document with an id has an entry, and the others do not. -/
theorem entry_eq_none_iff {doc : UserDocument V} :
    entry settings db doc = none ↔ hasId settings doc = false := by
  rw [entry, hasId, Option.map_eq_none_iff, Option.isSome_eq_false_iff, Option.isNone_iff_eq_none]

/-- The matches are the entries of the visible documents. -/
theorem filterMap_entry (settings : IdentitySettings) (db : UserDatabase V)
    (found : List (UserDocument V)) :
    (found.take 10).filterMap (entry settings db) =
      (visible settings found).filterMap (entry settings db) := by
  rw [visible, List.filterMap_filter]
  apply List.filterMap_congr
  intro doc _
  cases hid : hasId settings doc with
  | true => rfl
  | false => simp [entry_eq_none_iff.mpr hid]

/-- The ids that count are those of the live documents. -/
theorem liveIds_eq (settings : IdentitySettings) (db : UserDatabase V)
    (docs : List (UserDocument V)) :
    ((docs.filterMap (entry settings db)).filter fun e => !e.2).map Prod.fst =
      (live settings docs).filterMap fun doc =>
        (doc settings.oauthSubjectLookupIdField).map db.str := by
  induction docs with
  | nil => rfl
  | cons doc docs ih =>
    cases hid : doc settings.oauthSubjectLookupIdField with
    | none =>
      have hentry : entry settings db doc = none := by rw [entry, hid]; rfl
      rw [List.filterMap_cons_none hentry, ih]
      cases hdeleted : isDeleted settings doc <;> simp [live, hdeleted, hid]
    | some rawId =>
      have hentry : entry settings db doc = some (db.str rawId, isDeleted settings doc) := by
        rw [entry, hid]; rfl
      rw [List.filterMap_cons_some hentry]
      cases hdeleted : isDeleted settings doc <;> simp [live, hdeleted, hid] <;> exact ih

/-- What the visible documents decide. -/
theorem decideMatches_visible (settings : IdentitySettings) (db : UserDatabase V)
    (subject : String) (found : List (UserDocument V)) :
    let step := decideMatches settings subject
      ((visible settings found).filterMap (entry settings db))
    (∃ doc userId, live settings (visible settings found) = [doc] ∧
      (doc settings.oauthSubjectLookupIdField).map db.str = some userId ∧
      step = .lookedUp userId) ∨
    (step = .unresolved ∧ visible settings found ≠ [] ∧
      (live settings (visible settings found)).length ≠ 1) ∨
    (∃ userId, step = .staticMap userId ∧ visible settings found = []) := by
  have hlive : ∀ doc ∈ live settings (visible settings found), ∃ rawId,
      doc settings.oauthSubjectLookupIdField = some rawId := fun doc hdoc =>
    Option.isSome_iff_exists.mp (List.mem_filter.mp (List.mem_of_mem_filter hdoc)).2
  simp only [decideMatches, liveIds_eq]
  -- the visible documents: none of them is live, one is, or several are
  match hdocs : live settings (visible settings found) with
  | [] =>
    right
    by_cases hvisible : visible settings found = []
    · exact .inr ⟨settings.oauthSubjectUsers.lookup subject, by simp [hvisible], hvisible⟩
    · have hentries : (visible settings found).filterMap (entry settings db) ≠ [] := by
        intro hnil
        obtain ⟨doc, hdoc⟩ := List.exists_mem_of_ne_nil _ hvisible
        have hnone := List.filterMap_eq_nil_iff.mp hnil doc hdoc
        rw [entry_eq_none_iff, (List.mem_filter.mp hdoc).2] at hnone
        cases hnone
      exact .inl ⟨by simp [hentries], hvisible, by simp⟩
  | [doc] =>
    obtain ⟨rawId, hid⟩ := hlive doc (by rw [hdocs]; exact List.mem_singleton_self doc)
    exact .inl ⟨doc, db.str rawId, rfl, by rw [hid]; rfl, by simp [hid]⟩
  | doc :: doc' :: rest =>
    obtain ⟨rawId, hid⟩ := hlive doc (by rw [hdocs]; simp)
    obtain ⟨rawId', hid'⟩ := hlive doc' (by rw [hdocs]; simp)
    have hvisible : visible settings found ≠ [] := by
      intro hnil
      simp [hnil, live] at hdocs
    exact .inr (.inl ⟨by simp [hid, hid'], hvisible, by simp⟩)

/-- When the lookup returns, its matches decide. -/
theorem resolveOauthUser_of_returns {found : List (UserDocument V)}
    (h : LookupReturns settings db claims found) :
    resolveOauthUser settings db claims = .ok (decideMatches settings claims.subject
      ((visible settings found).filterMap (entry settings db))) := by
  have hfind : findUsersBySubject settings db claims.subject =
      .ok ((visible settings found).filterMap (entry settings db)) := by
    rw [findUsersBySubject, h.returns, ← filterMap_entry]
    rfl
  rw [resolveOauthUser, h.noClaim]
  simp only [h.enabled, hfind, if_true]

/-! ## When nothing is guessed -/

theorem live_eq_of_visible {found : List (UserDocument V)} {doc : UserDocument V}
    (hlive : live settings (visible settings found) = [doc])
    (hhidden : ∀ doc ∈ hidden settings found, isDeleted settings doc = true) :
    live settings found = [doc] := by
  have hperm := perm_live settings found
  rw [hlive, live_hidden_eq_nil_iff.mpr hhidden, List.append_nil] at hperm
  exact List.perm_singleton.mp hperm

theorem eq_nil_of_visible {found : List (UserDocument V)}
    (hvisible : visible settings found = []) (hhidden : hidden settings found = []) :
    found = [] := by
  have hperm := perm_visible_hidden settings found
  rw [hvisible, hhidden] at hperm
  exact List.perm_nil.mp hperm

/-- The identity of a subject is not guessed if and only if no matching document that the lookup
    does not see matters. -/
theorem neverGuesses_iff {found : List (UserDocument V)}
    (h : LookupReturns settings db claims found) :
    NeverGuesses settings db claims ↔ HiddenHarmless settings found := by
  have hresolve := resolveOauthUser_of_returns h
  have hcases := decideMatches_visible settings db claims.subject found
  constructor
  · intro hnever
    -- the step that is taken is the one that the visible documents decide
    obtain ⟨step, hstep, hguessed⟩ := hnever found h
    obtain rfl := Except.ok.inj (hresolve.symm.trans hstep)
    constructor
    · intro hone
      rcases hcases with ⟨doc, userId, hlive, -, hlookedUp⟩ | ⟨-, -, hne⟩ | ⟨-, -, hvisible⟩
      · -- a hidden live document would be a second one
        obtain ⟨doc', hfound, -⟩ := hguessed.lookedUp userId hlookedUp
        have hlength := (perm_live settings found).length_eq
        rw [hfound, List.length_append, hlive] at hlength
        apply live_hidden_eq_nil_iff.mp
        apply List.eq_nil_of_length_eq_zero
        simpa using hlength.symm
      · exact absurd hone hne
      · simp [hvisible, live] at hone
    · intro hvisible
      rcases hcases with ⟨doc, -, hlive, -, -⟩ | ⟨-, hne, -⟩ | ⟨userId, hstatic, -⟩
      · simp [hvisible, live] at hlive
      · exact absurd hvisible hne
      · -- the static map is consulted, so there are no documents at all
        simp [hidden, hguessed.staticMap userId hstatic]
  · intro hharmless found' h'
    obtain rfl : found = found' := Except.ok.inj (h.returns.symm.trans h'.returns)
    refine ⟨_, hresolve, ?_⟩
    rcases hcases with ⟨doc, userId, hlive, hid, hstep⟩ | ⟨hstep, -, -⟩ | ⟨result, hstep, hvisible⟩
    · have hfound := live_eq_of_visible hlive (hharmless.unique (by rw [hlive]; rfl))
      rw [hstep]
      refine ⟨?_, ?_, ?_, ?_⟩
      · intro userId' heq
        cases heq
        exact ⟨doc, hfound, hid⟩
      · intro hseveral
        simp [hfound] at hseveral
      · intro _ hdeleted
        simp [hfound] at hdeleted
      · intro _ heq
        cases heq
    · rw [hstep]
      refine ⟨?_, fun _ => rfl, fun _ _ => rfl, ?_⟩
      · intro _ heq
        cases heq
      · intro _ heq
        cases heq
    · have hfound := eq_nil_of_visible hvisible (hharmless.empty hvisible)
      rw [hstep]
      refine ⟨?_, ?_, fun hne => absurd hfound hne, fun _ _ => hfound⟩
      · intro _ heq
        cases heq
      · intro hseveral
        simp [hfound, live] at hseveral

/-! ## A subject with eleven documents -/

/-- A user document with an id, and a deletion time if it is deleted. -/
def userDocument (id : String) (deletedAt : Option String) : UserDocument String
  | "_id" => some id
  | "clerk_id" => some "sub"
  | "deleted_at" => deletedAt
  | _ => none

def clerkSettings : IdentitySettings where
  oauthSubjectLookupCollection := some "users"
  oauthSubjectLookupField := some "clerk_id"

/-- The database with these users. -/
def usersDatabase (docs : List (UserDocument String)) : UserDatabase String where
  str := id
  equalsText := fun value text => decide (value = text)
  documents := fun _ => .ok docs

theorem neverGuesses_iff_one :
    NeverGuesses clerkSettings (usersDatabase [userDocument "user-1" none]) { subject := "sub" } ↔
      HiddenHarmless clerkSettings [userDocument "user-1" none] :=
  neverGuesses_iff ⟨by decide, by decide, by rfl⟩

/-- One live user, nine deleted ones, and another live one. -/
def elevenUsers : List (UserDocument String) :=
  userDocument "user-1" none ::
    (List.replicate 9 (userDocument "user-0" (some "2026-01-01")) ++ [userDocument "user-2" none])

/-- A second live user behind the tenth document is not seen. -/
theorem not_neverGuesses_eleven :
    ¬ NeverGuesses clerkSettings (usersDatabase elevenUsers) { subject := "sub" } := by
  intro hnever
  have hresolve : resolveOauthUser clerkSettings (usersDatabase elevenUsers)
      { subject := "sub" } = .ok (.lookedUp "user-1") := by rfl
  obtain ⟨step, hstep, hguessed⟩ := hnever elevenUsers ⟨by decide, by decide, by rfl⟩
  obtain rfl := Except.ok.inj (hresolve.symm.trans hstep)
  obtain ⟨doc, hlive, -⟩ := hguessed.lookedUp "user-1" rfl
  have hlength : (live clerkSettings elevenUsers).length = 2 := by rfl
  rw [hlive] at hlength
  cases hlength

end Inherent.OauthIdentity
