/-
  RATE LIMITS (`src/filter/ratelimit.rs`): a token bucket for each client, and what its calls are granted when
  they come one after the other.

  A call first refills the bucket with what has become due since the last refill, and then takes a token.  The
  refill is floored, capped, and done only when at least one whole token is due; then the fraction that is left
  over is forgotten.  `token_bucket_bounded` is what the calls get in any stretch of time: the credit that a
  stretch may bring with it from before is less than one token.

  `elapsed.as_secs_f64() * rate` is taken as exact; the cast to `u64` saturates, and the sum with the tokens
  wraps.  A call reads the clock once.
-/
import Smppd.Lib.Bucket
import Smppd.Lib.Table
import Smppd.Store.Types

set_option linter.unusedVariables false

namespace Smppd.Filter

open Smppd.Store Table Bucket

/-- Rate limit configuration. -/
structure RateLimitConfig where
  /-- Requests per second limit. -/
  requestsPerSecond : UInt32 := 100
  /-- Burst size (token bucket capacity). -/
  burstSize : UInt32 := 100

/-- `RateLimitConfig::new`. -/
def RateLimitConfig.new (requestsPerSecond : UInt32) : RateLimitConfig :=
  { requestsPerSecond, burstSize := requestsPerSecond }

/-- `with_burst`. -/
def RateLimitConfig.withBurst (burst : UInt32) (self : RateLimitConfig) : RateLimitConfig :=
  { self with burstSize := burst }

/-! ## The token bucket -/

/-- Token bucket rate limiter. -/
structure TokenBucket where
  /-- Tokens available. -/
  tokens : UInt64
  /-- Last refill time. -/
  lastRefill : Instant
  /-- Refill rate (tokens per second). -/
  rate : UInt32
  /-- Maximum tokens. -/
  capacity : UInt32

/-- `Instant::duration_since`, which saturates at zero. -/
def durationSince (now earlier : Instant) : Duration := (now - earlier).toNat

/-- The whole tokens that become due in some nanoseconds. -/
def wholeTokens (rate : UInt32) (elapsed : Nat) : Nat := elapsed * rate.toNat / 1000000000

/-- `(elapsed.as_secs_f64() * self.rate as f64) as u64`. -/
def newTokens (rate : UInt32) (elapsed : Duration) : UInt64 :=
  UInt64.ofNat (min (wholeTokens rate elapsed) (2 ^ 64 - 1))

/-- `(current + new_tokens).min(self.capacity as u64)`. -/
def newTotal (capacity : UInt32) (current newTokens : UInt64) : UInt64 := min (current + newTokens) capacity.toUInt64

namespace TokenBucket

/-- `TokenBucket::new`. -/
def new (now : Instant) (rate capacity : UInt32) : TokenBucket :=
  { tokens := capacity.toUInt64, lastRefill := now, rate, capacity }

/-- The first half of `try_acquire`: refill tokens based on elapsed time. -/
def refill (now : Instant) (self : TokenBucket) : TokenBucket :=
  let due := newTokens self.rate (durationSince now self.lastRefill)
  if 0 < due then { self with tokens := newTotal self.capacity self.tokens due, lastRefill := now } else self

/-- The second half: try to consume a token.  Nobody else is there, and the first exchange succeeds. -/
def consume (self : TokenBucket) : Bool × TokenBucket :=
  if self.tokens = 0 then (false, self) else (true, { self with tokens := self.tokens - 1 })

/-- `try_acquire`. -/
def tryAcquire (now : Instant) (self : TokenBucket) : Bool × TokenBucket := (self.refill now).consume

end TokenBucket

/-! ## One bucket for each client -/

/-- Rate limiter store (per-client rate limiting). -/
structure RateLimiterStore where
  buckets : Tbl String TokenBucket
  defaultConfig : RateLimitConfig

namespace RateLimiterStore

/-- `RateLimiterStore::new`. -/
def new (defaultConfig : RateLimitConfig) : RateLimiterStore := ⟨∅, defaultConfig⟩

/-- `get_bucket`: get or create a bucket for a client. -/
def getBucket (now : Instant) (clientId : String) (self : RateLimiterStore) : TokenBucket × RateLimiterStore :=
  match self.buckets.lookup clientId with
  | some bucket => (bucket, self)
  | none =>
    let bucket := TokenBucket.new now self.defaultConfig.requestsPerSecond self.defaultConfig.burstSize
    (bucket, { self with buckets := self.buckets.insert clientId bucket })

/-- `try_acquire`: the bucket in the map is the one the call takes from. -/
def tryAcquire (now : Instant) (clientId : String) (self : RateLimiterStore) : Bool × RateLimiterStore :=
  let (bucket, self) := self.getBucket now clientId
  let (granted, bucket) := bucket.tryAcquire now
  (granted, { self with buckets := self.buckets.insert clientId bucket })

end RateLimiterStore

/-! ## What a refill puts in -/

/-- What a bucket of the gateway is set to: so many tokens in a second of nanoseconds. -/
def terms (rate capacity : UInt32) : Terms := ⟨rate.toNat, capacity.toNat, 1000000000, by decide⟩

theorem accrued_terms (rate capacity : UInt32) (span : Duration) :
    accrued (terms rate capacity) span = rate.toNat * (span / 1000000000 : ℚ) := by
  show (rate.toNat : ℚ) * span / (1000000000 : Nat) = _
  push_cast
  ring

theorem newTokens_toNat (rate : UInt32) (elapsed : Duration) :
    (newTokens rate elapsed).toNat = min (wholeTokens rate elapsed) (2 ^ 64 - 1) := by
  have hlt : min (wholeTokens rate elapsed) (2 ^ 64 - 1) < 2 ^ 64 := by omega
  rw [newTokens, UInt64.toNat_ofNat', Nat.mod_eq_of_lt hlt]

theorem wholeTokens_mul_le (rate : UInt32) (elapsed : Nat) :
    wholeTokens rate elapsed * 1000000000 ≤ rate.toNat * elapsed := by
  rw [mul_comm rate.toNat]
  exact Nat.div_mul_le_self _ _

/-- No more is put in than has become due. -/
theorem newTokens_due {rate capacity : UInt32} {now last : Instant} (h : 0 < newTokens rate (durationSince now last)) :
    ((newTokens rate (durationSince now last)).toNat : Int) * (terms rate capacity).unit ≤
      (terms rate capacity).rate * (now - last) := by
  have hpos : 0 < (newTokens rate (durationSince now last)).toNat := UInt64.lt_iff_toNat_lt.mp h
  rw [newTokens_toNat] at hpos ⊢
  have hwhole := wholeTokens_mul_le rate (durationSince now last)
  -- something is due, so time has passed
  have hspan : durationSince now last ≠ 0 := by
    intro heq
    rw [heq, wholeTokens, Nat.zero_mul, Nat.zero_div, Nat.zero_min] at hpos
    exact absurd hpos (Nat.lt_irrefl 0)
  have htime : ((durationSince now last : Nat) : Int) = now - last :=
    Int.toNat_of_nonneg (not_lt.mp fun hlt => hspan (Int.toNat_of_nonpos hlt.le))
  have hmin : min (wholeTokens rate (durationSince now last)) (2 ^ 64 - 1) * 1000000000 ≤
      rate.toNat * (durationSince now last : Nat) :=
    (Nat.mul_le_mul_right _ (Nat.min_le_left _ _)).trans hwhole
  rw [← htime]
  exact_mod_cast hmin

/-- The later the clock is read, the more is due. -/
theorem newTokens_mono (rate : UInt32) (last : Instant) {now later : Instant} (h : now ≤ later) :
    newTokens rate (durationSince now last) ≤ newTokens rate (durationSince later last) := by
  have hspan : durationSince now last ≤ durationSince later last := Int.toNat_le_toNat (sub_le_sub_right h last)
  rw [UInt64.le_iff_toNat_le, newTokens_toNat, newTokens_toNat]
  exact min_le_min_right _ (Nat.div_le_div_right (Nat.mul_le_mul_right _ hspan))

/-- If nothing is put in, less than one token is due. -/
theorem due_lt_of_newTokens {rate capacity : UInt32} {now last : Instant} (hlast : last ≤ now)
    (h : ¬ 0 < newTokens rate (durationSince now last)) :
    (terms rate capacity).rate * (now - last) < ((terms rate capacity).unit : Int) := by
  have hzero := UInt64.lt_iff_toNat_lt.not.mp h
  rw [UInt64.toNat_zero, newTokens_toNat] at hzero
  have hwhole : wholeTokens rate (durationSince now last) = 0 := by omega
  have hsmall : rate.toNat * (durationSince now last : Nat) < 1000000000 := by
    unfold wholeTokens at hwhole
    rw [mul_comm]
    generalize (durationSince now last : Nat) * rate.toNat = product at hwhole ⊢
    omega
  have htime : ((durationSince now last : Nat) : Int) = now - last := Int.toNat_of_nonneg (sub_nonneg.mpr hlast)
  rw [← htime]
  exact_mod_cast hsmall

theorem newTotal_le_capacity (capacity : UInt32) (current due : UInt64) :
    (newTotal capacity current due).toNat ≤ capacity.toNat := by
  rw [newTotal, UInt64.toNat_min, UInt32.toNat_toUInt64]
  exact Nat.min_le_right _ _

/-- The sum wraps, which can only make it smaller. -/
theorem newTotal_le_add (capacity : UInt32) (current due : UInt64) :
    (newTotal capacity current due).toNat ≤ current.toNat + due.toNat := by
  rw [newTotal, UInt64.toNat_min, UInt64.toNat_add]
  exact (Nat.min_le_left _ _).trans (Nat.mod_le _ _)

theorem toNat_pos_of_ne_zero {n : UInt64} (h : n ≠ 0) : 0 < n.toNat := by
  by_contra hzero
  have htoNat : n.toNat = (0 : UInt64).toNat := by
    rw [UInt64.toNat_zero]
    omega
  exact h (UInt64.toNat_inj.mp htoNat)

theorem toNat_sub_one {n : UInt64} (h : n ≠ 0) : (n - 1).toNat = n.toNat - 1 := by
  have hpos := toNat_pos_of_ne_zero h
  have hle : (1 : UInt64) ≤ n := UInt64.le_iff_toNat_le.mpr hpos
  exact UInt64.toNat_sub_of_le _ _ hle

/-! ## The history of a bucket -/

namespace TokenBucket

/-- **The invariant**: the bucket keeps its rate and its capacity, and its history is metered. -/
structure Bounded (rate capacity : UInt32) (made : Instant) (granted : List Instant) (time : Instant)
    (bucket : TokenBucket) : Prop where
  sameRate : bucket.rate = rate
  sameCapacity : bucket.capacity = capacity
  metered : Metered (terms rate capacity) made bucket.tokens.toNat bucket.lastRefill granted time

/-- Nothing is due in the bucket that has not been put in. -/
def UpToDate (time : Instant) (self : TokenBucket) : Prop := newTokens self.rate (durationSince time self.lastRefill) = 0

instance (time : Instant) (self : TokenBucket) : Decidable (self.UpToDate time) := inferInstanceAs (Decidable (_ = _))

variable {rate capacity : UInt32} {made time : Instant} {granted : List Instant} {bucket : TokenBucket}

theorem bounded_new (rate capacity : UInt32) (made : Instant) :
    Bounded rate capacity made [] made (new made rate capacity) where
  sameRate := rfl
  sameCapacity := rfl
  metered := Metered.new (terms rate capacity) made

theorem Bounded.wait (h : Bounded rate capacity made granted time bucket) {later : Instant} (hlater : time ≤ later) :
    Bounded rate capacity made granted later bucket :=
  { h with metered := h.metered.wait hlater }

/-- Something is due at the time that a refill has read, and is put in. -/
theorem Bounded.refilled (h : Bounded rate capacity made granted time bucket) {now : Instant} (hnow : now ≤ time)
    (hdue : 0 < newTokens rate (durationSince now bucket.lastRefill)) :
    Bounded rate capacity made granted time
      { bucket with
        tokens := newTotal bucket.capacity bucket.tokens (newTokens rate (durationSince now bucket.lastRefill)),
        lastRefill := now } where
  sameRate := h.sameRate
  sameCapacity := h.sameCapacity
  metered := by
    rw [h.sameCapacity]
    exact h.metered.refill hnow (newTokens_due hdue) (newTotal_le_add _ _ _) (newTotal_le_capacity _ _ _)

/-- A token is taken from a bucket that is up to date. -/
theorem Bounded.taken (h : Bounded rate capacity made granted time bucket) (htokens : bucket.tokens ≠ 0)
    (hfresh : bucket.UpToDate time) :
    Bounded rate capacity made (granted ++ [time]) time { bucket with tokens := bucket.tokens - 1 } where
  sameRate := h.sameRate
  sameCapacity := h.sameCapacity
  metered := by
    have hnone : ¬ 0 < newTokens rate (durationSince time bucket.lastRefill) := by
      rw [UpToDate, h.sameRate] at hfresh
      rw [hfresh]
      exact UInt64.lt_irrefl 0
    have htaken := h.metered.take (toNat_pos_of_ne_zero htokens) (due_lt_of_newTokens h.metered.behind hnone)
    rw [← toNat_sub_one htokens] at htaken
    exact htaken

/-- A refill brings the bucket up to date. -/
theorem Bounded.refill (h : Bounded rate capacity made granted time bucket) :
    Bounded rate capacity made granted time (bucket.refill time) ∧ (bucket.refill time).UpToDate time := by
  unfold TokenBucket.refill UpToDate
  rw [h.sameRate]
  by_cases hdue : 0 < newTokens rate (durationSince time bucket.lastRefill)
  · simp only [if_pos hdue]
    refine ⟨?_, ?_⟩
    · have hrefilled := h.refilled (le_refl time) hdue
      rw [h.sameRate] at hrefilled
      exact hrefilled
    · rw [durationSince, sub_self, Int.toNat_zero, newTokens, wholeTokens, Nat.zero_mul, Nat.zero_div, Nat.zero_min]
      rfl
  · simp only [if_neg hdue, h.sameRate]
    refine ⟨h, UInt64.toNat_inj.mp ?_⟩
    have hzero := UInt64.lt_iff_toNat_lt.not.mp hdue
    rw [UInt64.toNat_zero] at hzero ⊢
    omega

end TokenBucket

/-! ## Calls one after the other -/

/-- A bucket and the calls it has had: the time of the last one, and the times of those that were granted. -/
structure Metering where
  bucket : TokenBucket
  time : Instant
  granted : List Instant

namespace Metering

/-- A bucket is made. -/
def new (rate capacity : UInt32) (made : Instant) : Metering := ⟨.new made rate capacity, made, []⟩

/-- A call comes some time after the one before. -/
def call (self : Metering) (delay : Duration) : Metering :=
  let time := self.time + delay
  match self.bucket.tryAcquire time with
  | (true, bucket) => ⟨bucket, time, self.granted ++ [time]⟩
  | (false, bucket) => ⟨bucket, time, self.granted⟩

/-- The bucket after some calls. -/
def after (rate capacity : UInt32) (made : Instant) (delays : List Duration) : Metering :=
  delays.foldl call (new rate capacity made)

/-- **The step lemma**: a call brings the bucket up to date and takes then. -/
theorem bounded_call {rate capacity : UInt32} {made : Instant} {s : Metering}
    (h : s.bucket.Bounded rate capacity made s.granted s.time) (delay : Duration) :
    (s.call delay).bucket.Bounded rate capacity made (s.call delay).granted (s.call delay).time := by
  have hlater : s.time ≤ s.time + delay := le_add_of_nonneg_right (Int.natCast_nonneg _)
  obtain ⟨hrefilled, hfresh⟩ := (h.wait hlater).refill
  rw [call, TokenBucket.tryAcquire, TokenBucket.consume]
  by_cases hzero : (s.bucket.refill (s.time + delay)).tokens = 0
  · rw [if_pos hzero]
    exact hrefilled
  · rw [if_neg hzero]
    exact hrefilled.taken hzero hfresh

/-- **The run lemma.** -/
theorem bounded_after (rate capacity : UInt32) (made : Instant) (delays : List Duration) :
    (after rate capacity made delays).bucket.Bounded rate capacity made (after rate capacity made delays).granted
      (after rate capacity made delays).time := by
  have hrun : ∀ s : Metering, s.bucket.Bounded rate capacity made s.granted s.time →
      (delays.foldl call s).bucket.Bounded rate capacity made (delays.foldl call s).granted
        (delays.foldl call s).time := by
    induction delays with
    | nil => exact fun s hs => hs
    | cons delay delays ih => exact fun s hs => ih (s.call delay) (bounded_call hs delay)
  exact hrun _ (TokenBucket.bounded_new rate capacity made)

end Metering

/-- **The bound of a token bucket.**  After any sequence of calls the bucket has at most its capacity; in any
    stretch of time at most the capacity, what becomes due in the stretch, and one more were granted; and since
    the bucket was made at most the capacity and what has become due. -/
theorem token_bucket_bounded (rate capacity : UInt32) (made : Instant) (delays : List Duration) :
    (Metering.after rate capacity made delays).bucket.tokens.toNat ≤ capacity.toNat ∧
      (∀ (start : Instant) (span : Duration),
        (within start (start + span) (Metering.after rate capacity made delays).granted : ℚ) ≤
          capacity.toNat + rate.toNat * (span / 1000000000 : ℚ) + 1) ∧
      ∀ span : Duration,
        (within made (made + span) (Metering.after rate capacity made delays).granted : ℚ) ≤
          capacity.toNat + rate.toNat * (span / 1000000000 : ℚ) := by
  have hmetered := (Metering.bounded_after rate capacity made delays).metered
  refine ⟨hmetered.capped, fun start span => ?_, fun span => ?_⟩
  · rw [← accrued_terms rate capacity]
    exact hmetered.window_le start span
  · rw [← accrued_terms rate capacity]
    exact hmetered.since_start span

end Smppd.Filter
