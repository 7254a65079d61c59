import Inherent.Native.RateLimiter

/-!
# The bound of the in-memory rate limiter

Every key's bucket is metered (`TokenBucket.Metered`) against the calls allowed for the
key, as long as no cleanup evicts a bucket before it is full again: a bucket that is
evicted early comes back full, and the key gets a fresh burst.
-/

open EventRun TokenBucket

namespace Inherent.RateLimiter

/-- The bucket of a key, or the full one it will get, against the calls allowed for it. -/
def Sound (config : RateConfig) (backend : InMemoryBackend) (now : ℚ) (key : String)
    (grants : List ℚ) : Prop :=
  match backend.buckets.find? key with
  | some item => item.2.lastUpdate ≤ now ∧
      Metered (config.limit : ℚ) config.rate grants item.2.tokens item.2.lastUpdate
  | none => Metered (config.limit : ℚ) config.rate grants config.limit now

theorem RateConfig.rate_nonneg (config : RateConfig) : 0 ≤ config.rate := by
  unfold RateConfig.rate
  positivity

section

variable {config : RateConfig} {backend : InMemoryBackend} {now t : ℚ} {key : String}
  {grants : List ℚ}

theorem sound_of_some {item : String × BucketState}
    (h : backend.buckets.find? key = some item) :
    Sound config backend now key grants ↔ item.2.lastUpdate ≤ now ∧
      Metered (config.limit : ℚ) config.rate grants item.2.tokens item.2.lastUpdate := by
  simp only [Sound, h]

theorem sound_of_none (h : backend.buckets.find? key = none) :
    Sound config backend now key grants ↔
      Metered (config.limit : ℚ) config.rate grants config.limit now := by
  simp only [Sound, h]

/-- Soundness of a key is about its bucket only. -/
theorem Sound.congr {backend' : InMemoryBackend} (h : Sound config backend now key grants)
    (heq : backend'.buckets.find? key = backend.buckets.find? key) :
    Sound config backend' now key grants := by
  unfold Sound at h ⊢
  rwa [heq]

theorem Sound.mono (h : Sound config backend now key grants) (hnow : now ≤ t) :
    Sound config backend t key grants := by
  cases hfind : backend.buckets.find? key with
  | some item =>
    obtain ⟨hlast, hmetered⟩ := (sound_of_some hfind).mp h
    exact (sound_of_some hfind).mpr ⟨hlast.trans hnow, hmetered⟩
  | none =>
    have hmetered := (sound_of_none hfind).mp h
    have hgain : 0 ≤ (t - now) * config.rate :=
      mul_nonneg (sub_nonneg.mpr hnow) config.rate_nonneg
    exact (sound_of_none hfind).mpr
      (hmetered.renew config.rate_nonneg (Nat.cast_nonneg _) hnow (by linarith))

theorem sound_init : Sound config (InMemoryBackend.init now) now key [] :=
  (sound_of_none (UniqueTable.find?_empty key)).mpr
    (metered_nil config.rate_nonneg (Nat.cast_nonneg _) le_rfl)

/-! ### What each part of a call keeps -/

/-- A cleanup keeps a key sound when it evicts the key's bucket only full. -/
theorem sound_periodicCleanup {windowSeconds : Nat} {callNow cleanupNow : ℚ}
    (h : Sound config backend now key grants) (ht : now ≤ t)
    (hevict : backend.CleanupDue callNow → ∀ item ∈ backend.buckets.rows, item.1 = key →
      InMemoryBackend.Stale windowSeconds cleanupNow item.2 →
        config.limit ≤ item.2.tokens + (t - item.2.lastUpdate) * config.rate) :
    Sound config (backend.periodicCleanup windowSeconds callNow cleanupNow) t key grants := by
  unfold InMemoryBackend.periodicCleanup
  split
  · rename_i hdue
    have hrows : ({ backend.cleanupStaleBuckets windowSeconds cleanupNow with
          lastCleanup := callNow } : InMemoryBackend).buckets.find? key =
        (backend.buckets.find? key).filter
          fun item => ¬ InMemoryBackend.Stale windowSeconds cleanupNow item.2 :=
      UniqueTable.find?_filter _ _ _
    cases hfind : backend.buckets.find? key with
    | none =>
      rw [hfind, Option.filter_none, ← hfind] at hrows
      exact (h.mono ht).congr hrows
    | some item =>
      obtain ⟨hmem, hkey⟩ := UniqueTable.find?_eq_some.mp hfind
      by_cases hstale : InMemoryBackend.Stale windowSeconds cleanupNow item.2
      · -- the bucket goes, and the new one that the key will get has no more tokens
        obtain ⟨hlast, hmetered⟩ := (sound_of_some hfind).mp h
        rw [hfind, Option.filter_some_neg (by simpa using hstale)] at hrows
        exact (sound_of_none hrows).mpr (hmetered.renew config.rate_nonneg (Nat.cast_nonneg _)
          (hlast.trans ht) (hevict hdue item hmem hkey hstale))
      · rw [hfind, Option.filter_some_pos (by simpa using hstale), ← hfind] at hrows
        exact (h.mono ht).congr hrows
  · exact h.mono ht

/-- The bucket that a call works on is metered. -/
theorem metered_getOrCreateBucket (h : Sound config backend now key grants) :
    (backend.getOrCreateBucket key config.limit now).1.lastUpdate ≤ now ∧
      Metered (config.limit : ℚ) config.rate grants
        (backend.getOrCreateBucket key config.limit now).1.tokens
        (backend.getOrCreateBucket key config.limit now).1.lastUpdate := by
  unfold InMemoryBackend.getOrCreateBucket
  cases hfind : backend.buckets.find? key with
  | some item => exact (sound_of_some hfind).mp h
  | none => exact ⟨le_rfl, (sound_of_none hfind).mp h⟩

/-- It is the bucket that the backend holds from then on. -/
theorem find?_getOrCreateBucket (backend : InMemoryBackend) (key : String) (limit : Nat)
    (now : ℚ) :
    (backend.getOrCreateBucket key limit now).2.buckets.find? key =
      some (key, (backend.getOrCreateBucket key limit now).1) := by
  unfold InMemoryBackend.getOrCreateBucket
  cases hfind : backend.buckets.find? key with
  | some item =>
    obtain rfl : item.1 = key := (UniqueTable.find?_eq_some.mp hfind).2
    exact hfind
  | none => exact UniqueTable.find?_put_self _ _

theorem find?_getOrCreateBucket_of_ne {other : String} (h : other ≠ key) (limit : Nat) :
    (backend.getOrCreateBucket key limit now).2.buckets.find? other =
      backend.buckets.find? other := by
  unfold InMemoryBackend.getOrCreateBucket
  cases backend.buckets.find? key with
  | some item => rfl
  | none => exact UniqueTable.find?_put_of_ne _ h

theorem sound_setBucket {bucket : BucketState} :
    Sound config (backend.setBucket key bucket) now key grants ↔ bucket.lastUpdate ≤ now ∧
      Metered (config.limit : ℚ) config.rate grants bucket.tokens bucket.lastUpdate := by
  have hfind : (backend.setBucket key bucket).buckets.find? key = some (key, bucket) :=
    UniqueTable.find?_put_self _ _
  exact sound_of_some hfind

/-- A refill brings a metered bucket up to date. -/
theorem metered_refillTokens {bucket bucket' : BucketState}
    (hlast : bucket.lastUpdate ≤ now)
    (h : Metered (config.limit : ℚ) config.rate grants bucket.tokens bucket.lastUpdate)
    (hrefill : refillTokens bucket config.limit config.windowSeconds now = .ok bucket') :
    bucket'.lastUpdate = now ∧
      Metered (config.limit : ℚ) config.rate grants bucket'.tokens now := by
  unfold refillTokens at hrefill
  split at hrefill
  · cases hrefill
  · injection hrefill with hbucket
    subst hbucket
    exact ⟨rfl, h.refill config.rate_nonneg (Nat.cast_nonneg _) hlast⟩

/-! ### One call -/

/-- A call for the key itself: the grant it may make is paid from the bucket. -/
theorem sound_checkAndConsume_self {windowSeconds : Nat} {cleanupNow : ℚ}
    (hwindow : config.windowSeconds = windowSeconds)
    (h : Sound config (backend.periodicCleanup windowSeconds now cleanupNow) now key grants)
    {outcome : Except LimiterError RateLimitResult × InMemoryBackend}
    (hcall : checkAndConsume backend key config.limit windowSeconds now cleanupNow = outcome) :
    Sound config outcome.2 now key
      (grants ++ match outcome.1 with
        | .ok result => if result.allowed then [now] else []
        | .error _ => []) := by
  subst hwindow
  obtain ⟨hlast, hmetered⟩ := metered_getOrCreateBucket h
  unfold checkAndConsume at hcall
  simp only at hcall
  split at hcall
  · -- the bucket stays as it was found or made
    subst hcall
    rw [List.append_nil]
    exact (sound_of_some (find?_getOrCreateBucket _ _ _ _)).mpr ⟨hlast, hmetered⟩
  · rename_i bucket hrefill
    obtain ⟨hnow, hrefilled⟩ := metered_refillTokens hlast hmetered hrefill
    split at hcall
    · rename_i htoken
      subst hcall
      rw [sound_setBucket]
      simp only [hnow, le_refl, true_and, if_true]
      exact hrefilled.grant config.rate_nonneg htoken
    · subst hcall
      rw [sound_setBucket]
      simp only [hnow, le_refl, true_and, Bool.false_eq_true, if_false, List.append_nil]
      exact hrefilled

/-- A call for another key changes the bucket by its cleanup only. -/
theorem find?_checkAndConsume_of_ne {other : String} (hne : other ≠ key)
    (limit windowSeconds : Nat) (cleanupNow : ℚ) :
    (checkAndConsume backend key limit windowSeconds now cleanupNow).2.buckets.find? other =
      (backend.periodicCleanup windowSeconds now cleanupNow).buckets.find? other := by
  unfold checkAndConsume
  simp only
  split
  · exact find?_getOrCreateBucket_of_ne hne limit
  · split
    · exact (UniqueTable.find?_put_of_ne _ hne).trans (find?_getOrCreateBucket_of_ne hne limit)
    · exact (UniqueTable.find?_put_of_ne _ hne).trans (find?_getOrCreateBucket_of_ne hne limit)

theorem sound_getInfo_self (h : Sound config backend now key grants) :
    Sound config (getInfo backend key config.limit config.windowSeconds now).2 now key
      grants := by
  obtain ⟨hlast, hmetered⟩ := metered_getOrCreateBucket h
  unfold getInfo
  simp only
  split
  · exact (sound_of_some (find?_getOrCreateBucket _ _ _ _)).mpr ⟨hlast, hmetered⟩
  · rename_i bucket hrefill
    obtain ⟨hnow, hrefilled⟩ := metered_refillTokens hlast hmetered hrefill
    rw [sound_setBucket, hnow]
    exact ⟨le_rfl, hrefilled⟩

theorem find?_getInfo_of_ne {other : String} (hne : other ≠ key) (limit windowSeconds : Nat) :
    (getInfo backend key limit windowSeconds now).2.buckets.find? other =
      backend.buckets.find? other := by
  unfold getInfo
  simp only
  split
  · exact find?_getOrCreateBucket_of_ne hne limit
  · exact (UniqueTable.find?_put_of_ne _ hne).trans (find?_getOrCreateBucket_of_ne hne limit)

end

/-! ## Runs -/

@[simp] theorem timesOf_append (key : String) (calls calls' : List (String × ℚ)) :
    timesOf key (calls ++ calls') = timesOf key calls ++ timesOf key calls' := by
  simp only [timesOf, List.filter_append, List.map_append]

@[simp] theorem timesOf_nil (key : String) : timesOf key [] = [] := rfl

theorem timesOf_allowedCall_self (config : String → RateConfig) (s : LimiterState)
    (key : String) (now cleanupNow : ℚ) :
    timesOf key (allowedCall config s (.check key now cleanupNow)) =
      match (checkAndConsume s.backend key (config key).limit (config key).windowSeconds now
          cleanupNow).1 with
      | .ok result => if result.allowed then [now] else []
      | .error _ => [] := by
  simp only [allowedCall]
  cases (checkAndConsume s.backend key (config key).limit (config key).windowSeconds now
      cleanupNow).1 with
  | ok result => cases h : result.allowed <;> simp [timesOf, h]
  | error e => rfl

theorem timesOf_allowedCall_of_ne (config : String → RateConfig) (s : LimiterState)
    {key other : String} (hne : other ≠ key) (now cleanupNow : ℚ) :
    timesOf other (allowedCall config s (.check key now cleanupNow)) = [] := by
  simp only [allowedCall]
  split
  · split <;> simp [timesOf, hne.symm]
  · rfl

/-- One call keeps every key sound when it evicts only full buckets. -/
theorem sound_step {config : String → RateConfig} {s s' : LimiterState} {e : LimiterEvent}
    {key : String} {grants : List ℚ}
    (h : Sound (config key) s.backend s.clock key grants)
    (hevict : EvictsOnlyRefilled config s e) (hstep : step config s e = some s') :
    Sound (config key) s'.backend s'.clock key
      (grants ++ timesOf key (allowedCall config s e)) := by
  cases e with
  | check called now cleanupNow =>
    simp only [step, Option.ite_none_right_eq_some, Option.some.injEq] at hstep
    obtain ⟨⟨hclock, hcleanup⟩, rfl⟩ := hstep
    by_cases hkey : key = called
    · subst hkey
      have hsound : Sound (config key)
          (s.backend.periodicCleanup (config key).windowSeconds now cleanupNow) now key grants := by
        apply sound_periodicCleanup h hclock
        intro hdue item hitem hk hstale
        have hfull := hevict hdue item hitem hstale
        rwa [if_pos hk, hk] at hfull
      rw [timesOf_allowedCall_self]
      apply Sound.mono (sound_checkAndConsume_self rfl hsound rfl)
      simp only
      split
      · exact hcleanup
      · exact le_rfl
    · rw [timesOf_allowedCall_of_ne config s hkey, List.append_nil]
      -- the bucket of the key is judged when the cleanup, if there is one, is over
      have hlater : s.clock ≤ if s.backend.CleanupDue now then cleanupNow else now := by
        split
        · exact hclock.trans hcleanup
        · exact hclock
      apply Sound.congr _ (find?_checkAndConsume_of_ne hkey _ _ _)
      apply sound_periodicCleanup h hlater
      intro hdue item hitem hk hstale
      have hfull := hevict hdue item hitem hstale
      rw [if_neg (hk ▸ hkey), hk] at hfull
      rw [if_pos hdue]
      exact hfull
  | info called now =>
    simp only [step, Option.ite_none_right_eq_some, Option.some.injEq] at hstep
    obtain ⟨hclock, rfl⟩ := hstep
    have hsound := h.mono hclock
    simp only [allowedCall, timesOf_nil, List.append_nil]
    by_cases hkey : key = called
    · subst hkey
      exact sound_getInfo_self hsound
    · exact hsound.congr (find?_getInfo_of_ne hkey _ _)

/-- A run keeps every key sound when each of its steps evicts only full buckets. -/
theorem sound_exec {config : String → RateConfig} {s s' : LimiterState}
    {events : List LimiterEvent} {key : String} {grants : List ℚ}
    (h : Sound (config key) s.backend s.clock key grants)
    (hevict : AllSteps (step config) (EvictsOnlyRefilled config) s events)
    (hrun : exec (step config) s events = some s') :
    Sound (config key) s'.backend s'.clock key
      (grants ++ allowedTimes config s events key) := by
  induction events generalizing s grants with
  | nil =>
    simp only [exec_nil, Option.some.injEq] at hrun
    simpa [allowedTimes, collect, hrun] using h
  | cons e events ih =>
    obtain ⟨t, ht, hrest⟩ := exec_cons_eq_some.mp hrun
    obtain ⟨he, hes⟩ := (allSteps_cons ht).mp hevict
    -- the grants of the first call come first
    have hsound := ih (sound_step h he ht) hes hrest
    simp only [allowedTimes, collect_cons ht, timesOf_append] at hsound ⊢
    rwa [List.append_assoc] at hsound

/-- The grants of a sound key are within the bound in every interval. -/
theorem Sound.granted_le {config : RateConfig} {backend : InMemoryBackend} {now : ℚ}
    {key : String} {grants : List ℚ} (h : Sound config backend now key grants) {a b : ℚ}
    (hab : a ≤ b) : granted grants a b ≤ config.limit + config.rate * (b - a) := by
  cases hfind : backend.buckets.find? key with
  | some item => exact ((sound_of_some hfind).mp h).2.within a b hab
  | none => exact ((sound_of_none hfind).mp h).within a b hab

/-- In a run whose cleanups evict only buckets that are full again, the calls allowed for
    any key in any interval are at most its limit and the refill of the interval. -/
theorem allowedBetween_le (config : String → RateConfig) (start : ℚ)
    (events : List LimiterEvent) (s : LimiterState)
    (hrun : exec (step config) (LimiterState.init start) events = some s)
    (hevict : AllSteps (step config) (EvictsOnlyRefilled config) (LimiterState.init start) events)
    (key : String) (a b : ℚ) (hab : a ≤ b) :
    (allowedBetween config (LimiterState.init start) events key a b : ℚ) ≤
      (config key).limit + (config key).limit * (b - a) / (config key).windowSeconds := by
  have hinit : Sound (config key) (InMemoryBackend.init start) start key [] := sound_init
  have hsound := sound_exec hinit hevict hrun
  rw [List.nil_append] at hsound
  have hle := hsound.granted_le hab
  rwa [RateConfig.rate, div_mul_eq_mul_div] at hle

/-- A cleanup is harmless to a bucket whose window is at most twice that of the call. -/
theorem refilled_of_stale {config : String → RateConfig} {key called : String}
    {bucket : BucketState} {now : ℚ} (htokens : 0 ≤ bucket.tokens)
    (hwindow : 0 < (config key).windowSeconds)
    (hle : (config key).windowSeconds ≤ (config called).windowSeconds * 2)
    (hstale : InMemoryBackend.Stale (config called).windowSeconds now bucket) :
    Refilled config key bucket now := by
  have hpos : (0 : ℚ) < (config key).windowSeconds := Nat.cast_pos.mpr hwindow
  have hidle : ((config key).windowSeconds : ℚ) ≤ now - bucket.lastUpdate := by
    have hcast : ((config key).windowSeconds : ℚ) ≤ (config called).windowSeconds * 2 := by
      exact_mod_cast hle
    exact hcast.trans hstale.le
  have hgain : ((config key).windowSeconds : ℚ) * (config key).rate ≤
      (now - bucket.lastUpdate) * (config key).rate :=
    mul_le_mul_of_nonneg_right hidle (config key).rate_nonneg
  have hfull : ((config key).windowSeconds : ℚ) * (config key).rate = (config key).limit :=
    mul_div_cancel₀ _ hpos.ne'
  unfold Refilled
  linarith

/-! ### A bucket that is evicted early -/

/-- One write a month for the first key, sixty calls a minute for the others. -/
def monthAndMinute (key : String) : RateConfig :=
  if key = "month" then ⟨1, 2592000⟩ else ⟨60, 60⟩

/-- The call for the second key cleans up after more than two of its minutes. -/
def evictingCalls : List LimiterEvent :=
  [.check "month" 0 0, .check "minute" 301 301, .check "month" 302 302]

/-- The monthly key gets its single call twice within six minutes. -/
theorem allowedBetween_evicting :
    (∃ s, exec (step monthAndMinute) (LimiterState.init 0) evictingCalls = some s) ∧
      ¬ ((allowedBetween monthAndMinute (LimiterState.init 0) evictingCalls "month" 0 302 : ℚ) ≤
        (monthAndMinute "month").limit + (monthAndMinute "month").limit * (302 - 0) /
          (monthAndMinute "month").windowSeconds) := by
  refine ⟨Option.isSome_iff_exists.mp ?_, ?_⟩ <;> decide +kernel

/-- The cleanup of a minute's key may evict another one: it is full again. -/
theorem allowedBetween_le_minutes :
    (allowedBetween monthAndMinute (LimiterState.init 0)
      [.check "first" 0 0, .check "minute" 301 302, .check "first" 303 303] "first" 0 303 : ℚ) ≤
        (monthAndMinute "first").limit + (monthAndMinute "first").limit * (303 - 0) /
          (monthAndMinute "first").windowSeconds := by
  have hsome : (exec (step monthAndMinute) (LimiterState.init 0)
      [.check "first" 0 0, .check "minute" 301 302, .check "first" 303 303]).isSome := by
    decide +kernel
  obtain ⟨s, hs⟩ := Option.isSome_iff_exists.mp hsome
  exact allowedBetween_le monthAndMinute 0 _ s hs (by decide +kernel) "first" 0 303 (by norm_num)

end Inherent.RateLimiter
