import Inherent.ForStd.EarlyExit
import Inherent.Native.Quotas

/-!
# Quotas fail open

`check_quota` is a list of guards with an early exit (`implements_checkQuota`): the counters that
the entitlements set and the call is subject to, in order, and the document cap of an upload.  A
service that fails answers nothing, so the call goes on to the next guard; a denial is the answer
of one guard, and the counters behind it are not consumed (`failsOpen_checkQuota`).
-/

namespace Inherent.Quotas

open StatefulProgram EarlyExit

variable {σ : Type}

/-! ## The guards -/

/-- The counters that a call is subject to, in the order in which they are checked. -/
def counters (principal : Principal) (entitlements : Entitlements) (toolPermission : String) :
    List CounterCheck :=
  (entitlements.callsPerMinute.map fun limit =>
    counterCheck principal entitlements "calls_per_minute" limit secondsPerMinute).toList ++
  ((entitlements.callsPerMonth.map fun limit =>
    counterCheck principal entitlements "calls_per_month" limit secondsPerMonth).toList ++
  if toolPermission = writePermission then
    (entitlements.writesPerDay.map fun limit =>
      counterCheck principal entitlements "writes_per_day" limit secondsPerDay).toList
  else [])

/-- The denial of a counter. -/
def CounterCheck.denial (check : CounterCheck) (resetAt : ℚ) : QuotaDenial where
  limitName := check.limitName
  limit := check.limit
  resetAt := some resetAt
  upgradeUrl := check.upgradeUrl

/-- A counter as a guard: a limiter that raises answers nothing. -/
def counterGuard (limiter : Limiter σ) (check : CounterCheck) (s : σ) : Option QuotaDenial × σ :=
  match exec (limiter.checkRateLimit check.key check.limit check.windowSeconds) s with
  | (.ok result, t) => (if result.allowed then none else some (check.denial result.resetAt), t)
  | (.error _, t) => (none, t)

/-- The denial of the document cap. -/
def documentsDenial (services : QuotaServices σ) (entitlements : Entitlements)
    (workspaceIdsProvider : Option (Except Failure (List String))) : Option QuotaDenial := do
  let workspaceIds ← workspaceIdsProvider
  let current ← (countDocuments services workspaceIds).toOption.join
  let maxDocuments ← entitlements.maxDocuments
  if current < maxDocuments then none
  else
    some
      { limitName := "max_documents"
        limit := maxDocuments
        resetAt := none
        upgradeUrl := entitlements.upgradeUrl }

/-- The guards of a call. -/
def quotaGuards (services : QuotaServices σ) (principal : Principal)
    (toolName toolPermission : String)
    (workspaceIdsProvider : Option (Except Failure (List String))) (entitlements : Entitlements) :
    List (σ → Option QuotaDenial × σ) :=
  (counters principal entitlements toolPermission).map (counterGuard services.limiter) ++
    if toolName ∈ documentIncreasingTools ∧ entitlements.maxDocuments.isSome then
      [fun s => (documentsDenial services entitlements workspaceIdsProvider, s)]
    else []

theorem implements_checkCounter (limiter : Limiter σ) (check : CounterCheck) :
    Implements (checkCounter limiter check) (counterGuard limiter check) := by
  intro s
  rw [checkCounter, exec_bind, exec_tryCatch, exec_map, counterGuard]
  obtain ⟨result, t⟩ := exec
    (limiter.checkRateLimit check.key check.limit check.windowSeconds) s
  -- a limiter that raises lets the call through
  cases result with
  | error failure => rfl
  | ok answer => cases hallowed : answer.allowed <;> simp [hallowed, CounterCheck.denial]

theorem implements_checkMaxDocuments (services : QuotaServices σ) {entitlements : Entitlements}
    (workspaceIdsProvider : Option (Except Failure (List String)))
    (hmax : entitlements.maxDocuments.isSome = true) :
    Implements (checkMaxDocuments services entitlements workspaceIdsProvider)
      fun s => (documentsDenial services entitlements workspaceIdsProvider, s) := by
  intro s
  obtain ⟨maxDocuments, hmax⟩ := Option.isSome_iff_exists.mp hmax
  unfold checkMaxDocuments documentsDenial
  cases workspaceIdsProvider with
  | none => rfl
  | some workspaceIds =>
    cases hcount : countDocuments services workspaceIds with
    | error failure => simp [hcount, Except.toOption]
    | ok counted =>
      cases counted with
      | none => simp [hcount, Except.toOption]
      | some current =>
        -- with a cap the assertion holds
        by_cases hlt : (current : Int) < maxDocuments <;>
          simp [hcount, hmax, hlt, Except.toOption]

theorem implements_checkQuota (services : QuotaServices σ) (principal : Principal)
    (toolName toolPermission : String)
    (workspaceIdsProvider : Option (Except Failure (List String))) {entitlements : Entitlements}
    (h : services.getEntitlements principal = .ok entitlements) :
    Implements (checkQuota services principal toolName toolPermission workspaceIdsProvider)
      (answer (quotaGuards services principal toolName toolPermission workspaceIdsProvider
        entitlements)) := by
  unfold checkQuota
  rw [h]
  by_cases hunlimited : entitlements.unlimited = true
  · have hguards : quotaGuards services principal toolName toolPermission workspaceIdsProvider
        entitlements = [] := by
      simp only [Entitlements.unlimited, Bool.and_eq_true, Option.isNone_iff_eq_none] at hunlimited
      simp [quotaGuards, counters, hunlimited]
    simp only [hunlimited, if_true, hguards]
    exact implements_pure
  · have hcheck (name : String) (seconds : Nat) (limit : Int) :=
      implements_checkCounter services.limiter
        (counterCheck principal entitlements name limit seconds)
    have hguards (check : Option Int) (name : String) (seconds : Nat) :
        List.map (counterGuard services.limiter) (check.map fun limit =>
          counterCheck principal entitlements name limit seconds).toList =
        (check.map fun limit => counterGuard services.limiter
          (counterCheck principal entitlements name limit seconds)).toList := by
      cases check <;> rfl
    simp only [if_neg hunlimited, quotaGuards, counters, List.map_append, List.append_assoc,
      hguards]
    -- the checks one after the other, each behind those that pass
    generalize entitlements.callsPerMinute = minute
    revert minute
    refine Implements.option (hcheck _ _) (fun _ => rfl) (fun _ _ => rfl) (fun _ => rfl) ?_
    generalize entitlements.callsPerMonth = month
    revert month
    refine Implements.option (hcheck _ _) (fun _ => rfl) (fun _ _ => rfl) (fun _ => rfl) ?_
    have hdocuments (hcap : toolName ∈ documentIncreasingTools ∧
        entitlements.maxDocuments.isSome) :=
      implements_checkMaxDocuments services workspaceIdsProvider hcap.2
    by_cases hwrite : toolPermission = writePermission
    · simp only [if_pos hwrite, hguards]
      generalize entitlements.writesPerDay = day
      revert day
      refine Implements.option (hcheck _ _) (fun _ => rfl) (fun _ _ => rfl) (fun _ => rfl) ?_
      exact Implements.ite hdocuments (fun _ => rfl) implements_pure
    · simp only [if_neg hwrite, List.map_nil, List.nil_append]
      exact Implements.ite hdocuments (fun _ => rfl) implements_pure

/-! ## Failing open -/

/-- The state of the limiter after it is asked for the counters in order. -/
def consume (limiter : Limiter σ) (checks : List CounterCheck) (s : σ) : σ :=
  checks.foldl
    (fun s check => (exec (limiter.checkRateLimit check.key check.limit check.windowSeconds) s).2) s

/-- The limiter answers for the counter, and its answer is the denial. -/
def Denies (limiter : Limiter σ) (s : σ) (check : CounterCheck) (denial : QuotaDenial) : Prop :=
  ∃ answer t, exec (limiter.checkRateLimit check.key check.limit check.windowSeconds) s =
    (.ok answer, t) ∧ answer.allowed = false ∧ denial = check.denial answer.resetAt

/-- None of the counters is denied when its turn comes: the limiter raises or allows the call. -/
def AllPass (limiter : Limiter σ) (checks : List CounterCheck) (s : σ) : Prop :=
  ∀ before check after, checks = before ++ check :: after →
    ∀ denial, ¬ Denies limiter (consume limiter before s) check denial

/-- The workspaces and their documents are known, and there are as many as the cap allows. -/
def DocumentsDenied (services : QuotaServices σ) (entitlements : Entitlements)
    (workspaceIdsProvider : Option (Except Failure (List String))) (denial : QuotaDenial) : Prop :=
  ∃ workspaceIds current maxDocuments, workspaceIdsProvider = some (.ok workspaceIds) ∧
    workspaceIds ≠ [] ∧ services.documentCount workspaceIds = .ok current ∧
    entitlements.maxDocuments = some maxDocuments ∧ maxDocuments ≤ (current : Int) ∧
    denial = ⟨"max_documents", maxDocuments, none, entitlements.upgradeUrl⟩

/-- The services, with another document cap in all entitlements. -/
def QuotaServices.withMaxDocuments (services : QuotaServices σ) (maxDocuments : Option Int) :
    QuotaServices σ :=
  { services with
    getEntitlements := fun principal => do
      let entitlements ← services.getEntitlements principal
      return { entitlements with maxDocuments } }

/-- `check_quota` never raises; it lets the call through if the entitlements cannot be read, or if
    no guard answers with a denial; and a denial is that of one guard behind guards that pass.
    A denied counter is exceeded, and the counters behind it are not asked for.  The document cap
    is nothing to a tool that does not upload. -/
structure FailsOpen (services : QuotaServices σ) (principal : Principal)
    (toolName toolPermission : String)
    (workspaceIdsProvider : Option (Except Failure (List String))) (s : σ) : Prop where
  neverRaises : ∃ result t,
    exec (checkQuota services principal toolName toolPermission workspaceIdsProvider) s =
      (.ok result, t)
  allowsWithoutLookup : ∀ failure, services.getEntitlements principal = .error failure →
    exec (checkQuota services principal toolName toolPermission workspaceIdsProvider) s =
      (.ok none, s)
  allows : ∀ entitlements, services.getEntitlements principal = .ok entitlements →
    AllPass services.limiter (counters principal entitlements toolPermission) s →
    (toolName ∈ documentIncreasingTools →
      ∀ denial, ¬ DocumentsDenied services entitlements workspaceIdsProvider denial) →
    exec (checkQuota services principal toolName toolPermission workspaceIdsProvider) s =
      (.ok none, consume services.limiter (counters principal entitlements toolPermission) s)
  ignoresMaxDocuments : toolName ∉ documentIncreasingTools → ∀ maxDocuments,
    exec (checkQuota (services.withMaxDocuments maxDocuments) principal toolName toolPermission
        workspaceIdsProvider) s =
      exec (checkQuota services principal toolName toolPermission workspaceIdsProvider) s
  denies : ∀ entitlements, services.getEntitlements principal = .ok entitlements →
    ∀ denial t,
      exec (checkQuota services principal toolName toolPermission workspaceIdsProvider) s =
        (.ok (some denial), t) →
      (∃ before check after,
        counters principal entitlements toolPermission = before ++ check :: after ∧
        AllPass services.limiter before s ∧
        Denies services.limiter (consume services.limiter before s) check denial ∧
        services.limiter.Exceeded (consume services.limiter before s) check.key check.limit
          check.windowSeconds ∧
        t = consume services.limiter (before ++ [check]) s) ∨
      (toolName ∈ documentIncreasingTools ∧
        AllPass services.limiter (counters principal entitlements toolPermission) s ∧
        DocumentsDenied services entitlements workspaceIdsProvider denial ∧
        t = consume services.limiter (counters principal entitlements toolPermission) s)

variable {limiter : Limiter σ}

theorem counterGuard_snd (check : CounterCheck) (s : σ) : (counterGuard limiter check s).2 =
    (exec (limiter.checkRateLimit check.key check.limit check.windowSeconds) s).2 := by
  rw [counterGuard]
  obtain ⟨result, t⟩ := exec
    (limiter.checkRateLimit check.key check.limit check.windowSeconds) s
  cases result <;> rfl

theorem counterGuard_eq_some_iff {check : CounterCheck} {s : σ} {denial : QuotaDenial} :
    (counterGuard limiter check s).1 = some denial ↔ Denies limiter s check denial := by
  rw [counterGuard, Denies]
  obtain ⟨result, t⟩ := exec
    (limiter.checkRateLimit check.key check.limit check.windowSeconds) s
  cases result with
  | error failure => simp
  | ok answer =>
    constructor
    · intro h
      cases hallowed : answer.allowed with
      | true => simp [hallowed] at h
      | false =>
        simp only [hallowed, Bool.false_eq_true, if_false, Option.some.injEq] at h
        exact ⟨answer, t, rfl, hallowed, h.symm⟩
    · rintro ⟨answer', t', hanswer, hallowed, rfl⟩
      cases hanswer
      simp [hallowed]

theorem through_counterGuards (checks : List CounterCheck) (s : σ) :
    through (checks.map (counterGuard limiter)) s = consume limiter checks s := by
  rw [through, consume, List.foldl_map]
  simp only [counterGuard_snd]

theorem passes_counterGuards_iff {checks : List CounterCheck} {s : σ} :
    Passes (checks.map (counterGuard limiter)) s ↔ AllPass limiter checks s := by
  have hguard (check : CounterCheck) (s : σ) : (counterGuard limiter check s).1 = none ↔
      ∀ denial, ¬ Denies limiter s check denial := by
    simp only [Option.eq_none_iff_forall_ne_some, Ne, counterGuard_eq_some_iff]
  rw [passes_iff]
  constructor
  · rintro h before check after rfl
    have hcheck := h (before.map (counterGuard limiter)) _ (after.map (counterGuard limiter))
      (by rw [List.map_append, List.map_cons])
    rw [through_counterGuards] at hcheck
    exact (hguard _ _).mp hcheck
  · intro h before guard after heq
    obtain ⟨first, rest, rfl, rfl, hrest⟩ := List.map_eq_append_iff.mp heq
    obtain ⟨check, last, rfl, rfl, rfl⟩ := List.map_eq_cons_iff.mp hrest
    rw [through_counterGuards]
    exact (hguard _ _).mpr (h first check last rfl)

theorem countDocuments_eq_some_iff {services : QuotaServices σ}
    {outcome : Except Failure (List String)} {current : Nat} :
    (countDocuments services outcome).toOption.join = some current ↔
      ∃ workspaceIds, outcome = .ok workspaceIds ∧ workspaceIds ≠ [] ∧
        services.documentCount workspaceIds = .ok current := by
  cases outcome with
  | error failure => simp [countDocuments, bind, Except.bind, Except.toOption]
  | ok workspaceIds =>
    by_cases hnil : workspaceIds = []
    · simp [countDocuments, hnil, bind, Except.bind, pure, Except.pure, Except.toOption]
    · cases hcount : services.documentCount workspaceIds <;>
        simp [countDocuments, hnil, hcount, bind, Except.bind, pure, Except.pure,
          Except.toOption]

theorem documentsDenial_eq_some_iff {services : QuotaServices σ} {entitlements : Entitlements}
    {workspaceIdsProvider : Option (Except Failure (List String))} {denial : QuotaDenial} :
    documentsDenial services entitlements workspaceIdsProvider = some denial ↔
      DocumentsDenied services entitlements workspaceIdsProvider denial := by
  unfold documentsDenial DocumentsDenied
  simp only [Option.bind_eq_bind, Option.bind_eq_some_iff, countDocuments_eq_some_iff]
  constructor
  · rintro ⟨outcome, hprovider, current, ⟨workspaceIds, rfl, hne, hcount⟩, maxDocuments, hmax, h⟩
    split at h
    · cases h
    · next hlt =>
      exact ⟨workspaceIds, current, maxDocuments, hprovider, hne, hcount, hmax, not_lt.mp hlt,
        (Option.some.inj h).symm⟩
  · rintro ⟨workspaceIds, current, maxDocuments, hprovider, hne, hcount, hmax, hle, rfl⟩
    exact ⟨_, hprovider, current, ⟨workspaceIds, rfl, hne, hcount⟩, maxDocuments, hmax,
      if_neg (not_lt.mpr hle)⟩

/-- A run of `check_quota` is the first answer of its guards. -/
theorem exec_checkQuota {services : QuotaServices σ} {principal : Principal}
    {entitlements : Entitlements} (h : services.getEntitlements principal = .ok entitlements)
    (toolName toolPermission : String)
    (workspaceIdsProvider : Option (Except Failure (List String))) (s : σ) :
    exec (checkQuota services principal toolName toolPermission workspaceIdsProvider) s =
      let result := answer (quotaGuards services principal toolName toolPermission
        workspaceIdsProvider entitlements) s
      (.ok result.1, result.2) :=
  implements_checkQuota services principal toolName toolPermission workspaceIdsProvider h s

theorem exec_checkQuota_of_error {services : QuotaServices σ} {principal : Principal}
    {failure : Failure} (h : services.getEntitlements principal = .error failure)
    (toolName toolPermission : String)
    (workspaceIdsProvider : Option (Except Failure (List String))) (s : σ) :
    exec (checkQuota services principal toolName toolPermission workspaceIdsProvider) s =
      (.ok none, s) := by
  rw [checkQuota, h, exec_pure]

theorem failsOpen_checkQuota (services : QuotaServices σ) (principal : Principal)
    (toolName toolPermission : String)
    (workspaceIdsProvider : Option (Except Failure (List String))) (s : σ) :
    FailsOpen services principal toolName toolPermission workspaceIdsProvider s where
  neverRaises := by
    cases h : services.getEntitlements principal with
    | error failure =>
      exact ⟨none, s, exec_checkQuota_of_error h toolName toolPermission workspaceIdsProvider s⟩
    | ok entitlements =>
      exact ⟨_, _, exec_checkQuota h toolName toolPermission workspaceIdsProvider s⟩
  allowsWithoutLookup failure h :=
    exec_checkQuota_of_error h toolName toolPermission workspaceIdsProvider s
  allows entitlements h hcounters hdocuments := by
    have hpasses := passes_counterGuards_iff.mpr hcounters
    rw [exec_checkQuota h, quotaGuards, answer_append_of_passes hpasses, through_counterGuards]
    split
    · next hcap =>
      have hnone : documentsDenial services entitlements workspaceIdsProvider = none := by
        rw [Option.eq_none_iff_forall_ne_some]
        exact fun denial hdenial => hdocuments hcap.1 denial
          (documentsDenial_eq_some_iff.mp hdenial)
      rw [hnone]
      rfl
    · rfl
  ignoresMaxDocuments htool maxDocuments := by
    have hguards (services : QuotaServices σ) (entitlements : Entitlements) :
        quotaGuards services principal toolName toolPermission workspaceIdsProvider entitlements =
          (counters principal entitlements toolPermission).map (counterGuard services.limiter) := by
      rw [quotaGuards, if_neg fun hcap => htool hcap.1, List.append_nil]
    cases h : services.getEntitlements principal with
    | error failure =>
      have h' : (services.withMaxDocuments maxDocuments).getEntitlements principal =
          .error failure := by
        simp [QuotaServices.withMaxDocuments, h, bind, Except.bind]
      rw [exec_checkQuota_of_error h, exec_checkQuota_of_error h']
    | ok entitlements =>
      have h' : (services.withMaxDocuments maxDocuments).getEntitlements principal =
          .ok { entitlements with maxDocuments } := by
        simp [QuotaServices.withMaxDocuments, h, bind, Except.bind, pure, Except.pure]
      rw [exec_checkQuota h, exec_checkQuota h', hguards, hguards]
      rfl
  denies entitlements h denial t hdenial := by
    rw [exec_checkQuota h, quotaGuards] at hdenial
    cases hcounters : (answer ((counters principal entitlements toolPermission).map
        (counterGuard services.limiter)) s).1 with
    | some found =>
      -- a counter answers
      left
      rw [answer_append_of_some hcounters] at hdenial
      obtain ⟨hresult, rfl⟩ := Prod.mk.inj hdenial
      obtain ⟨guards, guard, skipped, hguards, hbefore, hguard, ht⟩ := exists_of_answer
        (Prod.ext (Except.ok.inj hresult) rfl)
      obtain ⟨before, rest, heq, rfl, hrest⟩ := List.map_eq_append_iff.mp hguards
      obtain ⟨check, after, rfl, rfl, rfl⟩ := List.map_eq_cons_iff.mp hrest
      rw [through_counterGuards] at hguard
      have hdenied := counterGuard_eq_some_iff.mp hguard
      have hexceeded : services.limiter.Exceeded (consume services.limiter before s) check.key
          check.limit check.windowSeconds := by
        obtain ⟨result, u, hexec, hallowed, -⟩ := hdenied
        exact services.limiter.exceeded_of_denied hexec hallowed
      refine ⟨before, check, after, heq, passes_counterGuards_iff.mp hbefore, hdenied, hexceeded,
        ht.trans ?_⟩
      rw [← through_counterGuards, List.map_append, List.map_singleton]
    | none =>
      right
      have hpasses := answer_eq_none_iff.mp hcounters
      rw [answer_append_of_passes hpasses, through_counterGuards] at hdenial
      split at hdenial
      · next hcap =>
        obtain ⟨hresult, rfl⟩ := Prod.mk.inj hdenial
        have hdocuments : documentsDenial services entitlements workspaceIdsProvider =
            some denial := by
          cases hdocuments : documentsDenial services entitlements workspaceIdsProvider with
          | none => simp [answer, hdocuments] at hresult
          | some found => simpa [answer, hdocuments] using hresult
        refine ⟨hcap.1, passes_counterGuards_iff.mp hpasses,
          documentsDenial_eq_some_iff.mp hdocuments, ?_⟩
        simp [answer, hdocuments]
      · cases hdenial

end Inherent.Quotas
