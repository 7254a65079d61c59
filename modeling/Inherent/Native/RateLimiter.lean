import Mathlib
import Inherent.ForStd.Run
import Inherent.ForStd.UniqueTable
import Inherent.ForStd.TokenBucket

/-!
# The in-memory rate limiter of the public API

`src/services/inh-public-api-svc/src/core/rate_limiter.py`: a token bucket for each key,
and a cleanup of stale buckets that a call makes when the last one is more than five
minutes ago.  Times are rational.  A call reads the clock when it holds the lock (`now`),
and its cleanup reads it again (`cleanupNow`).
-/

namespace Inherent.RateLimiter

/-- `RateLimitInfo`. -/
structure RateLimitInfo where
  limit : Nat
  remaining : Int
  resetAt : ℚ
  windowSeconds : Nat
deriving DecidableEq, Repr

/-- `RateLimitResult`. -/
structure RateLimitResult where
  allowed : Bool
  info : RateLimitInfo
deriving DecidableEq, Repr

/-- `_BucketState`. -/
structure BucketState where
  tokens : ℚ
  lastUpdate : ℚ
  windowStart : ℚ
deriving DecidableEq, Repr

/-- `InMemoryBackend`. -/
structure InMemoryBackend where
  /-- `_buckets`, the items of the dict. -/
  buckets : UniqueTable (Prod.fst : String × BucketState → String)
  lastCleanup : ℚ
deriving DecidableEq

/-- The limiter raises only here: `limit / window_seconds` with a window of zero. -/
inductive LimiterError where
  | zeroDivision
deriving DecidableEq, Repr

/-- `_cleanup_interval`. -/
def cleanupInterval : ℚ := 300

/-- `int(tokens)` rounds toward zero. -/
def pyInt (q : ℚ) : Int := if 0 ≤ q then ⌊q⌋ else ⌈q⌉

namespace InMemoryBackend

/-- `__init__` at time `now`. -/
def init (now : ℚ) : InMemoryBackend := ⟨UniqueTable.empty, now⟩

/-- `_get_or_create_bucket`: the bucket of the key, and the backend that holds it. -/
def getOrCreateBucket (backend : InMemoryBackend) (key : String) (limit : Nat) (now : ℚ) :
    BucketState × InMemoryBackend :=
  match backend.buckets.find? key with
  | some item => (item.2, backend)
  | none =>
    let bucket : BucketState := { tokens := limit, lastUpdate := now, windowStart := now }
    (bucket, { backend with buckets := backend.buckets.put (key, bucket) })

/-- The assignments to the fields of the key's bucket. -/
def setBucket (backend : InMemoryBackend) (key : String) (bucket : BucketState) :
    InMemoryBackend :=
  { backend with buckets := backend.buckets.put (key, bucket) }

/-- `now - bucket.last_update > stale_threshold`, twice the window of the call. -/
def Stale (windowSeconds : Nat) (now : ℚ) (bucket : BucketState) : Prop :=
  now - bucket.lastUpdate > windowSeconds * 2

instance (windowSeconds : Nat) (now : ℚ) (bucket : BucketState) :
    Decidable (Stale windowSeconds now bucket) :=
  inferInstanceAs (Decidable (now - bucket.lastUpdate > windowSeconds * 2))

/-- `_cleanup_stale_buckets`. -/
def cleanupStaleBuckets (backend : InMemoryBackend) (windowSeconds : Nat) (now : ℚ) :
    InMemoryBackend :=
  { backend with buckets := backend.buckets.filter fun item => ¬ Stale windowSeconds now item.2 }

/-- A call at `now` cleans up first. -/
def CleanupDue (backend : InMemoryBackend) (now : ℚ) : Prop :=
  now - backend.lastCleanup > cleanupInterval

instance (backend : InMemoryBackend) (now : ℚ) : Decidable (backend.CleanupDue now) :=
  inferInstanceAs (Decidable (now - backend.lastCleanup > cleanupInterval))

/-- The periodic cleanup of `check_and_consume`. -/
def periodicCleanup (backend : InMemoryBackend) (windowSeconds : Nat) (now cleanupNow : ℚ) :
    InMemoryBackend :=
  if backend.CleanupDue now then
    { backend.cleanupStaleBuckets windowSeconds cleanupNow with lastCleanup := now }
  else backend

end InMemoryBackend

/-- `_refill_tokens`. -/
def refillTokens (bucket : BucketState) (limit windowSeconds : Nat) (now : ℚ) :
    Except LimiterError BucketState :=
  if windowSeconds = 0 then .error .zeroDivision
  else
    let tokens := TokenBucket.refill (limit : ℚ) (limit / windowSeconds) bucket.tokens
      bucket.lastUpdate now
    -- the window starts again when the bucket is full
    let windowStart := if tokens ≥ limit then now else bucket.windowStart
    .ok { tokens, lastUpdate := now, windowStart }

/-- `check_and_consume`: the result, or the error it raises, and the backend afterwards. -/
def checkAndConsume (backend : InMemoryBackend) (key : String) (limit windowSeconds : Nat)
    (now cleanupNow : ℚ) : Except LimiterError RateLimitResult × InMemoryBackend :=
  let backend := backend.periodicCleanup windowSeconds now cleanupNow
  let (bucket, backend) := backend.getOrCreateBucket key limit now
  match refillTokens bucket limit windowSeconds now with
  | .error e => (.error e, backend)
  | .ok bucket =>
    let resetAt := bucket.windowStart + windowSeconds
    if bucket.tokens ≥ 1 then
      let bucket := { bucket with tokens := bucket.tokens - 1 }
      (.ok ⟨true, { limit, remaining := pyInt bucket.tokens, resetAt, windowSeconds }⟩,
        backend.setBucket key bucket)
    else
      (.ok ⟨false, { limit, remaining := 0, resetAt, windowSeconds }⟩,
        backend.setBucket key bucket)

/-- `get_info`. -/
def getInfo (backend : InMemoryBackend) (key : String) (limit windowSeconds : Nat) (now : ℚ) :
    Except LimiterError RateLimitInfo × InMemoryBackend :=
  let (bucket, backend) := backend.getOrCreateBucket key limit now
  match refillTokens bucket limit windowSeconds now with
  | .error e => (.error e, backend)
  | .ok bucket =>
    (.ok { limit, remaining := pyInt bucket.tokens,
           resetAt := bucket.windowStart + windowSeconds, windowSeconds },
      backend.setBucket key bucket)

/-! ## Runs -/

/-- The limit and the window that every call for a key passes. -/
structure RateConfig where
  limit : Nat
  windowSeconds : Nat
deriving DecidableEq, Repr

namespace RateConfig

/-- Tokens for each second. -/
def rate (config : RateConfig) : ℚ := config.limit / config.windowSeconds

end RateConfig

/-- A call, with the clock readings it makes. -/
inductive LimiterEvent where
  | check (key : String) (now cleanupNow : ℚ)
  | info (key : String) (now : ℚ)
deriving DecidableEq, Repr

/-- The backend, and the last clock reading any call has made. -/
structure LimiterState where
  backend : InMemoryBackend
  clock : ℚ
deriving DecidableEq

/-- The limiter after `__init__` at time `now`. -/
def LimiterState.init (now : ℚ) : LimiterState := ⟨InMemoryBackend.init now, now⟩

/-- One call: the clock readings of the calls never decrease. -/
def step (config : String → RateConfig) (s : LimiterState) : LimiterEvent → Option LimiterState
  | .check key now cleanupNow =>
    if s.clock ≤ now ∧ now ≤ cleanupNow then
      some { backend := (checkAndConsume s.backend key (config key).limit
               (config key).windowSeconds now cleanupNow).2
             clock := if s.backend.CleanupDue now then cleanupNow else now }
    else none
  | .info key now =>
    if s.clock ≤ now then
      some { backend := (getInfo s.backend key (config key).limit
               (config key).windowSeconds now).2
             clock := now }
    else none

/-- The key and the time of a call of `check_and_consume` that is allowed. -/
def allowedCall (config : String → RateConfig) (s : LimiterState) :
    LimiterEvent → List (String × ℚ)
  | .check key now cleanupNow =>
    match (checkAndConsume s.backend key (config key).limit (config key).windowSeconds now
        cleanupNow).1 with
    | .ok result => if result.allowed then [(key, now)] else []
    | .error _ => []
  | .info _ _ => []

/-- The times of the calls for a key. -/
def timesOf (key : String) (calls : List (String × ℚ)) : List ℚ :=
  (calls.filter (·.1 = key)).map (·.2)

/-- The times of the allowed calls for a key in a run, in order. -/
def allowedTimes (config : String → RateConfig) (s : LimiterState) (events : List LimiterEvent)
    (key : String) : List ℚ :=
  timesOf key (EventRun.collect (step config) (allowedCall config) s events)

/-- Number of the calls for a key that a run allows from time `a` to time `b`. -/
def allowedBetween (config : String → RateConfig) (s : LimiterState)
    (events : List LimiterEvent) (key : String) (a b : ℚ) : Nat :=
  TokenBucket.granted (allowedTimes config s events key) a b

/-- A bucket of the key has got all its tokens back by the time `now`. -/
def Refilled (config : String → RateConfig) (key : String) (bucket : BucketState) (now : ℚ) :
    Prop :=
  (config key).limit ≤ bucket.tokens + (now - bucket.lastUpdate) * (config key).rate

instance (config : String → RateConfig) (key : String) (bucket : BucketState) (now : ℚ) :
    Decidable (Refilled config key bucket now) :=
  inferInstanceAs (Decidable (_ ≤ _))

/-- The step evicts no bucket that still lacks tokens: one of the key that is called must be
    full when the call starts, and one of another key when the cleanup reads the clock. -/
def EvictsOnlyRefilled (config : String → RateConfig) (s : LimiterState) :
    LimiterEvent → Prop
  | .check key now cleanupNow =>
    s.backend.CleanupDue now → ∀ item ∈ s.backend.buckets.rows,
      InMemoryBackend.Stale (config key).windowSeconds cleanupNow item.2 →
        Refilled config item.1 item.2 (if item.1 = key then now else cleanupNow)
  | .info _ _ => True

instance (config : String → RateConfig) (s : LimiterState) (e : LimiterEvent) :
    Decidable (EvictsOnlyRefilled config s e) :=
  match e with
  | .check _ _ _ => inferInstanceAs (Decidable (_ → ∀ item ∈ s.backend.buckets.rows, _))
  | .info _ _ => inferInstanceAs (Decidable True)

end Inherent.RateLimiter
