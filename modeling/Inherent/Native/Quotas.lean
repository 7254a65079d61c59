import Inherent.ForStd.StatefulProgram
import Inherent.Native.RateLimiter

/-!
# `check_quota`

`src/services/inh-public-api-svc/src/mcp_server/quotas.py` with the entitlements of
`src/services/entitlements.py`, over a rate limiter whose state is a parameter.  Every service may
raise, and the limiter may have counted the call all the same.  Both backends of
`src/core/rate_limiter.py` are such limiters; the Redis server is a parameter, and times are
rational.
-/

namespace Inherent.Quotas

open StatefulProgram

/-- An `Exception`: one that a service has raised, or the assertion in `_check_max_documents`. -/
inductive Failure where
  | raised (text : String)
  | assertionError
  deriving DecidableEq, Repr

/-! ## The rate limiter -/

/-- `RateLimitResult`, as far as `_check_counter` reads it. -/
structure RateLimitAnswer where
  allowed : Bool
  resetAt : ℚ
  deriving DecidableEq, Repr

/-- `TokenBucketRateLimiter` with its backend, and what it means there that the limit of a key is
    exceeded. -/
structure Limiter (σ : Type) where
  checkRateLimit : String → Int → Nat → ExceptT Failure (StateM σ) RateLimitAnswer
  Exceeded : σ → String → Int → Nat → Prop
  exceeded_of_denied : ∀ {s t : σ} {key limit windowSeconds answer},
    exec (checkRateLimit key limit windowSeconds) s = (.ok answer, t) → answer.allowed = false →
      Exceeded s key limit windowSeconds

/-! ## The Redis backend -/

/-- The commands of the client, and `time.time()`. -/
structure RedisClient (ρ : Type) where
  incr : String → ExceptT Failure (StateM ρ) Int
  ttl : String → ExceptT Failure (StateM ρ) Int
  expire : String → Nat → ExceptT Failure (StateM ρ) Unit
  time : ExceptT Failure (StateM ρ) ℚ

variable {ρ : Type}

/-- `_bucket_key`. -/
def redisBucketKey (key : String) (windowSeconds : Nat) : String :=
  "ratelimit:" ++ key ++ ":" ++ toString windowSeconds

/-- The time to live of a bucket, which gets one if it has none. -/
def bucketTtl (client : RedisClient ρ) (bucket : String) (windowSeconds : Nat) :
    ExceptT Failure (StateM ρ) Int := do
  let ttl ← client.ttl bucket
  if ttl < 0 then
    client.expire bucket windowSeconds
    return windowSeconds
  return ttl

/-- `RedisBackend.check_and_consume`. -/
def redisCheckAndConsume (client : RedisClient ρ) (key : String) (limit : Int)
    (windowSeconds : Nat) : ExceptT Failure (StateM ρ) RateLimitAnswer := do
  let bucket := redisBucketKey key windowSeconds
  let count ← client.incr bucket
  let ttl ← bucketTtl client bucket windowSeconds
  let now ← client.time
  return { allowed := decide (count ≤ limit), resetAt := now + ttl }

/-- The count of the window is over the limit. -/
def RedisExceeded (client : RedisClient ρ) (s : ρ) (key : String) (limit : Int)
    (windowSeconds : Nat) : Prop :=
  ∃ count t, exec (client.incr (redisBucketKey key windowSeconds)) s = (.ok count, t) ∧
    limit < count

/-- The limiter over `RedisBackend`. -/
def redisLimiter (client : RedisClient ρ) : Limiter ρ where
  checkRateLimit := redisCheckAndConsume client
  Exceeded := RedisExceeded client
  exceeded_of_denied := by
    intro s t key limit windowSeconds answer h hdenied
    obtain ⟨count, s₁, hcount, h⟩ := exec_bind_eq_ok.mp h
    obtain ⟨ttl, s₂, -, h⟩ := exec_bind_eq_ok.mp h
    obtain ⟨now, s₃, -, h⟩ := exec_bind_eq_ok.mp h
    cases h
    exact ⟨count, s₁, hcount, not_le.mp (of_decide_eq_false hdenied)⟩

/-! ## The in-memory backend -/

open RateLimiter (InMemoryBackend BucketState)

/-- The backend, and the two clock readings of each call. -/
structure InMemoryState where
  backend : InMemoryBackend
  clock : Nat → ℚ × ℚ
  calls : Nat := 0

/-- The bucket that a call finds or creates, and the backend that holds it. -/
def InMemoryState.bucket (s : InMemoryState) (key : String) (limit : Int) (windowSeconds : Nat) :
    BucketState × InMemoryBackend :=
  let (now, cleanupNow) := s.clock s.calls
  let backend := s.backend.periodicCleanup windowSeconds now cleanupNow
  match backend.buckets.find? key with
  | some item => (item.2, backend)
  | none =>
    let bucket : BucketState := { tokens := limit, lastUpdate := now, windowStart := now }
    (bucket, backend.setBucket key bucket)

/-- `_refill_tokens`, for a window that is not empty. -/
def refilled (bucket : BucketState) (limit : Int) (windowSeconds : Nat) (now : ℚ) :
    BucketState :=
  let tokens := TokenBucket.refill (limit : ℚ) (limit / windowSeconds) bucket.tokens
    bucket.lastUpdate now
  { tokens
    lastUpdate := now
    windowStart := if tokens ≥ limit then now else bucket.windowStart }

/-- `InMemoryBackend.check_and_consume`, for any integer as the limit. -/
def inMemoryCheckAndConsume (key : String) (limit : Int) (windowSeconds : Nat) :
    ExceptT Failure (StateM InMemoryState) RateLimitAnswer := do
  let s ← get
  let (bucket, backend) := s.bucket key limit windowSeconds
  if windowSeconds = 0 then
    set { s with backend := backend, calls := s.calls + 1 }
    throw (.raised "ZeroDivisionError")
  let bucket := refilled bucket limit windowSeconds (s.clock s.calls).1
  let allowed := decide (bucket.tokens ≥ 1)
  let left := if bucket.tokens ≥ 1 then { bucket with tokens := bucket.tokens - 1 } else bucket
  set { s with backend := backend.setBucket key left, calls := s.calls + 1 }
  return { allowed, resetAt := bucket.windowStart + windowSeconds }

/-- The refilled bucket of the key holds no whole token. -/
def InMemoryExceeded (s : InMemoryState) (key : String) (limit : Int) (windowSeconds : Nat) :
    Prop :=
  (refilled (s.bucket key limit windowSeconds).1 limit windowSeconds (s.clock s.calls).1).tokens < 1

theorem exec_inMemoryCheckAndConsume (s : InMemoryState) (key : String) (limit : Int)
    (windowSeconds : Nat) :
    exec (inMemoryCheckAndConsume key limit windowSeconds) s =
      let found := s.bucket key limit windowSeconds
      let bucket := refilled found.1 limit windowSeconds (s.clock s.calls).1
      if windowSeconds = 0 then
        (.error (.raised "ZeroDivisionError"),
          { s with backend := found.2, calls := s.calls + 1 })
      else
        (.ok { allowed := decide (bucket.tokens ≥ 1)
               resetAt := bucket.windowStart + windowSeconds },
          { s with
            backend := found.2.setBucket key
              (if bucket.tokens ≥ 1 then { bucket with tokens := bucket.tokens - 1 } else bucket)
            calls := s.calls + 1 }) := by
  rw [inMemoryCheckAndConsume, exec_bind, exec_get]
  by_cases hzero : windowSeconds = 0
  · simp only [hzero, if_true, exec_bind, exec_set, exec_throw]
  · simp only [hzero, if_false, exec_bind, exec_set, exec_pure]

/-- What `_check_counter` reads of an answer of `RateLimiter.checkAndConsume`. -/
def answerOf : Except RateLimiter.LimiterError RateLimiter.RateLimitResult →
    Except Failure RateLimitAnswer
  | .ok result => .ok { allowed := result.allowed, resetAt := result.info.resetAt }
  | .error .zeroDivision => .error (.raised "ZeroDivisionError")

theorem refillTokens_eq_refilled (bucket : BucketState) (limit : Nat) {windowSeconds : Nat}
    (h : windowSeconds ≠ 0) (now : ℚ) :
    RateLimiter.refillTokens bucket limit windowSeconds now =
      .ok (refilled bucket limit windowSeconds now) := by
  simp [RateLimiter.refillTokens, refilled, h]

/-- For a limit that is not negative the limiter is that of `RateLimiter.checkAndConsume`. -/
theorem exec_inMemoryCheckAndConsume_natCast (s : InMemoryState) (key : String)
    (limit windowSeconds : Nat) :
    exec (inMemoryCheckAndConsume key limit windowSeconds) s =
      let answer := RateLimiter.checkAndConsume s.backend key limit windowSeconds
        (s.clock s.calls).1 (s.clock s.calls).2
      (answerOf answer.1, { s with backend := answer.2, calls := s.calls + 1 }) := by
  have hbucket : s.bucket key limit windowSeconds =
      (s.backend.periodicCleanup windowSeconds (s.clock s.calls).1
        (s.clock s.calls).2).getOrCreateBucket key limit (s.clock s.calls).1 := by
    unfold InMemoryState.bucket InMemoryBackend.getOrCreateBucket InMemoryBackend.setBucket
    cases hfind : (s.backend.periodicCleanup windowSeconds (s.clock s.calls).1
      (s.clock s.calls).2).buckets.find? key with
    | none => simp [hfind]
    | some item => simp [hfind]
  rw [exec_inMemoryCheckAndConsume, hbucket, RateLimiter.checkAndConsume]
  generalize (s.backend.periodicCleanup windowSeconds (s.clock s.calls).1
    (s.clock s.calls).2).getOrCreateBucket key limit (s.clock s.calls).1 = found
  by_cases hzero : windowSeconds = 0
  · simp [hzero, RateLimiter.refillTokens, answerOf]
  · simp only [hzero, if_false, refillTokens_eq_refilled found.1 limit hzero]
    split <;> simp [answerOf, *]

/-- The limiter over `InMemoryBackend`. -/
def inMemoryLimiter : Limiter InMemoryState where
  checkRateLimit := inMemoryCheckAndConsume
  Exceeded := InMemoryExceeded
  exceeded_of_denied := by
    intro s t key limit windowSeconds answer h hdenied
    rw [exec_inMemoryCheckAndConsume] at h
    simp only at h
    split at h
    · cases h
    · cases h
      exact not_le.mp (of_decide_eq_false hdenied)

/-! ## Entitlements -/

/-- `Principal`. -/
structure Principal where
  principalType : String
  principalId : String
  deriving DecidableEq, Repr

/-- `Entitlements`. -/
structure Entitlements where
  callsPerMonth : Option Int := none
  writesPerDay : Option Int := none
  callsPerMinute : Option Int := none
  maxDocuments : Option Int := none
  upgradeUrl : Option String := none
  deriving DecidableEq, Repr

/-- `Entitlements.unlimited`. -/
def Entitlements.unlimited (entitlements : Entitlements) : Bool :=
  entitlements.callsPerMonth.isNone && entitlements.writesPerDay.isNone &&
    entitlements.callsPerMinute.isNone && entitlements.maxDocuments.isNone

/-- `QuotaDenial`. -/
structure QuotaDenial where
  limitName : String
  limit : Int
  resetAt : Option ℚ
  upgradeUrl : Option String
  deriving DecidableEq, Repr

/-- `_SECONDS_PER_MINUTE`, `_SECONDS_PER_DAY` and `_SECONDS_PER_MONTH`. -/
def secondsPerMinute : Nat := 60
def secondsPerDay : Nat := 24 * 60 * 60
def secondsPerMonth : Nat := 30 * secondsPerDay

/-- `_DOCUMENT_INCREASING_TOOLS`. -/
def documentIncreasingTools : List String := ["upload_document"]

/-- `WRITE_PERMISSION`. -/
def writePermission : String := "write"

/-! ## The checks -/

variable {σ : Type}

/-- The services behind `check_quota`; `documentCount` is the count of `get_database()`. -/
structure QuotaServices (σ : Type) where
  getEntitlements : Principal → Except Failure Entitlements
  limiter : Limiter σ
  documentCount : List String → Except Failure Nat

/-- The arguments of `_check_counter` apart from the limiter. -/
structure CounterCheck where
  key : String
  limitName : String
  limit : Int
  windowSeconds : Nat
  upgradeUrl : Option String
  deriving DecidableEq, Repr

/-- `_check_counter`. -/
def checkCounter (limiter : Limiter σ) (check : CounterCheck) :
    ExceptT Failure (StateM σ) (Option QuotaDenial) := do
  let result ← tryCatch
    (some <$> limiter.checkRateLimit check.key check.limit check.windowSeconds)
    fun _ => pure none
  match result with
  | none => return none
  | some result =>
    if result.allowed then return none
    return some
      { limitName := check.limitName
        limit := check.limit
        resetAt := some result.resetAt
        upgradeUrl := check.upgradeUrl }

/-- The `try` of `_check_max_documents`: the count, if there are workspaces to count. -/
def countDocuments (services : QuotaServices σ) (workspaceIds : Except Failure (List String)) :
    Except Failure (Option Nat) := do
  let workspaceIds ← workspaceIds
  if workspaceIds = [] then return none
  let current ← services.documentCount workspaceIds
  return some current

/-- `_check_max_documents`; the provider is what calling it gives. -/
def checkMaxDocuments (services : QuotaServices σ) (entitlements : Entitlements)
    (workspaceIdsProvider : Option (Except Failure (List String))) :
    ExceptT Failure (StateM σ) (Option QuotaDenial) :=
  match workspaceIdsProvider with
  | none => pure none
  | some workspaceIds =>
    match countDocuments services workspaceIds with
    | .error _ => pure none
    | .ok none => pure none
    | .ok (some current) =>
      match entitlements.maxDocuments with
      | none => throw .assertionError
      | some maxDocuments =>
        if current < maxDocuments then pure none
        else
          pure (some
            { limitName := "max_documents"
              limit := maxDocuments
              resetAt := none
              upgradeUrl := entitlements.upgradeUrl })

/-- The check of one counter of a principal. -/
def counterCheck (principal : Principal) (entitlements : Entitlements) (limitName : String)
    (limit : Int) (windowSeconds : Nat) : CounterCheck where
  key := "entitlement:" ++ principal.principalType ++ ":" ++ principal.principalId ++ ":" ++
    limitName
  limitName := limitName
  limit := limit
  windowSeconds := windowSeconds
  upgradeUrl := entitlements.upgradeUrl

/-- `check_quota`. -/
def checkQuota (services : QuotaServices σ) (principal : Principal)
    (toolName toolPermission : String)
    (workspaceIdsForMaxDocuments : Option (Except Failure (List String)) := none) :
    ExceptT Failure (StateM σ) (Option QuotaDenial) := do
  match services.getEntitlements principal with
  | .error _ => return none
  | .ok entitlements =>
    if entitlements.unlimited then return none
    let isWrite := toolPermission = writePermission
    if let some limit := entitlements.callsPerMinute then
      if let some denial ← checkCounter services.limiter
          (counterCheck principal entitlements "calls_per_minute" limit secondsPerMinute) then
        return some denial
    if let some limit := entitlements.callsPerMonth then
      if let some denial ← checkCounter services.limiter
          (counterCheck principal entitlements "calls_per_month" limit secondsPerMonth) then
        return some denial
    if isWrite then
      if let some limit := entitlements.writesPerDay then
        if let some denial ← checkCounter services.limiter
            (counterCheck principal entitlements "writes_per_day" limit secondsPerDay) then
          return some denial
    if toolName ∈ documentIncreasingTools ∧ entitlements.maxDocuments.isSome then
      if let some denial ← checkMaxDocuments services entitlements
          workspaceIdsForMaxDocuments then
        return some denial
    return none

end Inherent.Quotas
