/-
  POLLING A RATE LIMIT (`src/filter/ratelimit.rs`): what `try_acquire` mints while the bucket is never full.

  A refill puts in the whole tokens that are due and moves the clock to now, so that the FRACTION of a token that
  was due beyond them is dropped; a call that finds less than one token due leaves the clock where it is and
  drops nothing.  Hence nothing that becomes due is lost but these fractions (`minted_add_unminted`):

  * a client that polls so often that most calls find nothing due loses next to nothing;
  * one that polls at a rate of 1 every 1.9 seconds loses almost half of its tokens, and there is no bound on
    how many: each refill can drop up to a token.

  What is due is reckoned in doubles, and a product just below a whole number is a whole token less
  (`newTokensF64`): at a rate of 100 the 29 tokens of 0.29 seconds are 28.  It is never more than one from what is
  exact (`newTokensF64_near`), but it is one at every refill, so the accounts are kept for any way to reckon
  (`due`), and only the end asks which.

  `polling_mints_iff` says for which spacings of the calls the client is at most one token short.
-/
import Mathlib.Algebra.Order.Floor.Semifield
import Smppd.Lib.Binary64
import Smppd.Filter.RateLimit

set_option linter.unusedVariables false

namespace Smppd.Filter

open Smppd.Store Bucket Binary64

/-! ## What is due, in doubles -/

/-- `Duration::as_secs_f64`: the seconds, and the nanoseconds beyond them. -/
def asSecsF64 (d : Duration) : ℚ :=
  rounded (rounded (d / 1000000000 : ℕ) + rounded ((d % 1000000000 : ℕ) / 1000000000))

/-- `(elapsed.as_secs_f64() * self.rate as f64) as u64`, which truncates and saturates. -/
def newTokensF64 (rate : UInt32) (elapsed : Duration) : UInt64 :=
  UInt64.ofNat (min ⌊rounded (asSecsF64 elapsed * rounded rate.toNat)⌋₊ (2 ^ 64 - 1))

/-- The seconds are off by a part in about `2^52`. -/
theorem abs_asSecsF64_sub_le (d : Duration) :
    |asSecsF64 d - d / 1000000000| ≤ (d / 1000000000 : ℚ) * (2 / 2 ^ 53 + 1 / 2 ^ 106) := by
  have hsplit : ((d / 1000000000 : ℕ) : ℚ) + ((d % 1000000000 : ℕ) : ℚ) / 1000000000 = d / 1000000000 := by
    have hdiv := Nat.div_add_mod d 1000000000
    have hcast : (1000000000 : ℚ) * (d / 1000000000 : ℕ) + (d % 1000000000 : ℕ) = d := by exact_mod_cast hdiv
    rw [← hcast]
    ring
  have hsecs : (0 : ℚ) ≤ (d / 1000000000 : ℕ) := Nat.cast_nonneg _
  have hnanos : (0 : ℚ) ≤ (d % 1000000000 : ℕ) / 1000000000 := div_nonneg (Nat.cast_nonneg _) (by norm_num)
  have hfirst := abs_le.mp (abs_rounded_sub_le hsecs)
  have hsecond := abs_le.mp (abs_rounded_sub_le hnanos)
  have hsum := abs_le.mp (abs_rounded_sub_le (add_nonneg (rounded_nonneg hsecs) (rounded_nonneg hnanos)))
  rw [← hsplit, asSecsF64, abs_le]
  constructor <;> linarith

/-- **Never more than one token off**, as long as less than `2^50` are due. -/
theorem newTokensF64_near {rate : UInt32} {elapsed : Duration} (h : wholeTokens rate elapsed < 2 ^ 50) :
    wholeTokens rate elapsed ≤ (newTokensF64 rate elapsed).toNat + 1 ∧
      (newTokensF64 rate elapsed).toNat ≤ wholeTokens rate elapsed + 1 := by
  have hrate : rounded rate.toNat = rate.toNat := rounded_natCast (rate.toNat_lt.trans (by norm_num))
  have hspan : (0 : ℚ) ≤ elapsed / 1000000000 := div_nonneg (Nat.cast_nonneg _) (by norm_num)
  have hpos : (0 : ℚ) ≤ rate.toNat := Nat.cast_nonneg _
  -- the exact product, and that its whole part is what `wholeTokens` says
  obtain ⟨exact_, hexact⟩ : ∃ x : ℚ, x = elapsed / 1000000000 * rate.toNat := ⟨_, rfl⟩
  have hwhole : wholeTokens rate elapsed = ⌊exact_⌋₊ := by
    have hquot : exact_ = ((elapsed * rate.toNat : ℕ) : ℚ) / (1000000000 : ℕ) := by
      rw [hexact]
      push_cast
      ring
    rw [hquot, Nat.floor_div_eq_div]
    rfl
  have hnonneg : 0 ≤ exact_ := hexact ▸ mul_nonneg hspan hpos
  have hsmall : exact_ < 2 ^ 50 := by
    rw [hwhole] at h
    exact_mod_cast (Nat.floor_lt hnonneg).mp h
  have hsecs := abs_le.mp (abs_asSecsF64_sub_le elapsed)
  have hsecs' : 0 ≤ asSecsF64 elapsed := rounded_nonneg (add_nonneg (rounded_nonneg (Nat.cast_nonneg _))
    (rounded_nonneg (div_nonneg (Nat.cast_nonneg _) (by norm_num))))
  have hlow := mul_le_mul_of_nonneg_right hsecs.1 hpos
  have hhigh := mul_le_mul_of_nonneg_right hsecs.2 hpos
  have hproduct := abs_le.mp (abs_rounded_sub_le (mul_nonneg hsecs' hpos))
  obtain ⟨reckoned, hreckoned⟩ : ∃ x : ℚ, x = rounded (asSecsF64 elapsed * rate.toNat) := ⟨_, rfl⟩
  have hoff : exact_ - 1 < reckoned ∧ reckoned < exact_ + 1 := by
    rw [← hreckoned] at hproduct
    rw [hexact] at hnonneg hsmall ⊢
    constructor <;> nlinarith
  have htoNat : (newTokensF64 rate elapsed).toNat = min ⌊reckoned⌋₊ (2 ^ 64 - 1) := by
    have hlt : min ⌊reckoned⌋₊ (2 ^ 64 - 1) < 2 ^ 64 := by omega
    rw [newTokensF64, hrate, ← hreckoned, UInt64.toNat_ofNat', Nat.mod_eq_of_lt hlt]
  have hfloors : ⌊exact_⌋₊ ≤ ⌊reckoned⌋₊ + 1 ∧ ⌊reckoned⌋₊ ≤ ⌊exact_⌋₊ + 1 := by
    have hreckoned' : 0 ≤ reckoned := hreckoned ▸ rounded_nonneg (mul_nonneg hsecs' hpos)
    rw [← Nat.floor_add_one hreckoned', ← Nat.floor_add_one hnonneg]
    exact ⟨Nat.floor_le_floor (by linarith), Nat.floor_le_floor (by linarith)⟩
  rw [hwhole] at h ⊢
  rw [htoNat]
  omega

/-- 0.29 seconds are a little less than 0.29 seconds. -/
example : newTokensF64 100 290000000 = 28 ∧ wholeTokens 100 290000000 = 29 := by decide +kernel

/-! ## A bucket, however it reckons what is due -/

section Reckoning

variable (due : UInt32 → Duration → UInt64)

namespace TokenBucket

/-- `refill`, by a way to reckon what is due at a rate after some time. -/
def refillBy (now : Instant) (self : TokenBucket) : TokenBucket :=
  let due := due self.rate (durationSince now self.lastRefill)
  if 0 < due then { self with tokens := newTotal self.capacity self.tokens due, lastRefill := now } else self

/-- `try_acquire`. -/
def tryAcquireBy (now : Instant) (self : TokenBucket) : Bool × TokenBucket := (self.refillBy due now).consume

/-- With the exact product it is the refill of before. -/
theorem refillBy_newTokens : refillBy newTokens = refill := rfl

end TokenBucket

namespace Metering

/-- A call comes some time after the one before. -/
def callBy (self : Metering) (delay : Duration) : Metering :=
  let time := self.time + delay
  match self.bucket.tryAcquireBy due time with
  | (true, bucket) => ⟨bucket, time, self.granted ++ [time]⟩
  | (false, bucket) => ⟨bucket, time, self.granted⟩

/-- The bucket after some calls. -/
def afterBy (rate capacity : UInt32) (made : Instant) (delays : List Duration) : Metering :=
  delays.foldl (callBy due) (new rate capacity made)

/-- The tokens that the refills of some calls put in. -/
def minted : Metering → List Duration → Nat
  | self, [] => 0
  | self, delay :: delays =>
    (self.bucket.refillBy due (self.time + delay)).tokens.toNat - self.bucket.tokens.toNat +
      minted (self.callBy due delay) delays

/-- At no call is the bucket full: what is due fits in. -/
def NeverFull : Metering → List Duration → Prop
  | self, [] => True
  | self, delay :: delays =>
    self.bucket.tokens.toNat + (due self.bucket.rate (durationSince (self.time + delay) self.bucket.lastRefill)).toNat ≤
      self.bucket.capacity.toNat ∧ NeverFull (self.callBy due delay) delays

instance decidableNeverFull : ∀ (s : Metering) (delays : List Duration), Decidable (s.NeverFull due delays)
  | _, [] => inferInstanceAs (Decidable True)
  | s, delay :: delays =>
    have := decidableNeverFull (s.callBy due delay) delays
    inferInstanceAs (Decidable (_ ∧ _))

/-- How long ago the last refill is. -/
def waiting (self : Metering) : Duration := durationSince self.time self.bucket.lastRefill

end Metering

/-- What becomes due and is not put in, in parts of a token (a whole one is 1000000000), when the last refill is
    `waiting` nanoseconds ago and calls come after some delays: the fraction that each refill drops, and what is
    still to come at the end.  A refill that puts in too much drops less than nothing. -/
def unminted (rate : UInt32) : Duration → List Duration → Int
  | waiting, [] => (waiting * rate.toNat : Nat)
  | waiting, delay :: delays =>
    if due rate (waiting + delay) = 0 then unminted rate (waiting + delay) delays
    else ((waiting + delay) * rate.toNat : Nat) - ((due rate (waiting + delay)).toNat * 1000000000 : Nat) +
      unminted rate 0 delays

/-! ### One call -/

namespace Metering

theorem callBy_time (s : Metering) (delay : Duration) : (s.callBy due delay).time = s.time + delay := by
  rw [callBy]
  split <;> rfl

/-- Taking a token is nothing to the clock of the bucket, nor to what it is set to. -/
theorem consume_kept (bucket : TokenBucket) :
    bucket.consume.2.rate = bucket.rate ∧ bucket.consume.2.lastRefill = bucket.lastRefill := by
  rw [TokenBucket.consume]
  split <;> exact ⟨rfl, rfl⟩

theorem callBy_kept (s : Metering) (delay : Duration) :
    (s.callBy due delay).bucket.rate = (s.bucket.refillBy due (s.time + delay)).rate ∧
      (s.callBy due delay).bucket.lastRefill = (s.bucket.refillBy due (s.time + delay)).lastRefill := by
  have hbucket : (s.callBy due delay).bucket = (s.bucket.refillBy due (s.time + delay)).consume.2 := by
    rw [callBy, TokenBucket.tryAcquireBy]
    rcases (s.bucket.refillBy due (s.time + delay)).consume with ⟨granted, bucket⟩
    cases granted <;> rfl
  rw [hbucket]
  exact consume_kept _

/-- The call reads the clock when the wait is longer by the delay. -/
theorem durationSince_callBy {s : Metering} {waiting : Duration} (hwait : s.bucket.lastRefill + waiting = s.time)
    (delay : Duration) : durationSince (s.time + delay) s.bucket.lastRefill = waiting + delay := by
  rw [durationSince, ← hwait, add_assoc, add_sub_cancel_left, ← Int.natCast_add, Int.toNat_natCast]

end Metering

theorem newTotal_of_le {capacity : UInt32} {current due : UInt64} (h : current.toNat + due.toNat ≤ capacity.toNat) :
    (newTotal capacity current due).toNat = current.toNat + due.toNat := by
  have hcapacity := capacity.toNat_lt
  have hsum : current.toNat + due.toNat < 2 ^ 64 := by omega
  rw [newTotal, UInt64.toNat_min, UInt64.toNat_add, Nat.mod_eq_of_lt hsum, UInt32.toNat_toUInt64, Nat.min_eq_left h]

/-- What a refill does to the clock. -/
theorem TokenBucket.refillBy_kept (now : Instant) (bucket : TokenBucket) :
    (bucket.refillBy due now).rate = bucket.rate ∧
      (bucket.refillBy due now).lastRefill =
        if due bucket.rate (durationSince now bucket.lastRefill) = 0 then bucket.lastRefill else now := by
  rw [refillBy]
  by_cases hzero : due bucket.rate (durationSince now bucket.lastRefill) = 0
  · rw [if_pos hzero, hzero, if_neg (UInt64.lt_irrefl 0)]
    exact ⟨rfl, rfl⟩
  · have hpos : 0 < due bucket.rate (durationSince now bucket.lastRefill) :=
      UInt64.lt_iff_toNat_lt.mpr (toNat_pos_of_ne_zero hzero)
    rw [if_neg hzero, if_pos hpos]
    exact ⟨rfl, rfl⟩

/-- **What a refill puts in** when everything that is due fits. -/
theorem TokenBucket.refillBy_of_le {due : UInt32 → Duration → UInt64} {bucket : TokenBucket} {now : Instant}
    (h : bucket.tokens.toNat + (due bucket.rate (durationSince now bucket.lastRefill)).toNat ≤
      bucket.capacity.toNat) :
    (bucket.refillBy due now).tokens.toNat - bucket.tokens.toNat =
      (due bucket.rate (durationSince now bucket.lastRefill)).toNat := by
  rw [refillBy]
  split
  · rw [newTotal_of_le h, Nat.add_sub_cancel_left]
  · rename_i hnone
    have hzero := UInt64.lt_iff_toNat_lt.not.mp hnone
    rw [UInt64.toNat_zero] at hzero
    omega

/-- A bucket keeps its rate, and its last refill is not in the future. -/
theorem Metering.kept_afterBy (rate capacity : UInt32) (made : Instant) (delays : List Duration) :
    (afterBy due rate capacity made delays).bucket.rate = rate ∧
      (afterBy due rate capacity made delays).bucket.lastRefill ≤ (afterBy due rate capacity made delays).time := by
  induction delays using List.reverseRecOn with
  | nil => exact ⟨rfl, le_refl made⟩
  | append_singleton delays delay ih =>
    obtain ⟨hrate, hlast⟩ := ih
    rw [afterBy, List.foldl_append]
    show (callBy due (afterBy due rate capacity made delays) delay).bucket.rate = rate ∧
      (callBy due (afterBy due rate capacity made delays) delay).bucket.lastRefill ≤
        (callBy due (afterBy due rate capacity made delays) delay).time
    generalize afterBy due rate capacity made delays = s at hrate hlast ⊢
    obtain ⟨hrate', hlast'⟩ := s.callBy_kept due delay
    obtain ⟨hsame, hclock⟩ := s.bucket.refillBy_kept due (s.time + delay)
    rw [hrate', hlast', hsame, hclock, callBy_time]
    have hlater : s.time ≤ s.time + delay := le_add_of_nonneg_right (Int.natCast_nonneg _)
    refine ⟨hrate, ?_⟩
    split
    · exact hlast.trans hlater
    · exact le_refl _

/-! ### Any number of calls -/

/-- **The accounts of a bucket that is never full**: what was waiting and what has become due was minted, but
    for what the refills dropped and what is waiting now.  By induction over the calls; `waiting` is the time
    since the last refill. -/
theorem minted_add_unminted {due : UInt32 → Duration → UInt64} (delays : List Duration) {s : Metering} {waiting : Duration}
    (hwait : s.bucket.lastRefill + waiting = s.time) (h : s.NeverFull due delays) :
    ((s.minted due delays * 1000000000 : Nat) : Int) + unminted due s.bucket.rate waiting delays =
      ((waiting + delays.sum) * s.bucket.rate.toNat : Nat) := by
  induction delays generalizing s waiting with
  | nil => simp [Metering.minted, unminted]
  | cons delay delays ih =>
    obtain ⟨hfits, hrest⟩ := h
    obtain ⟨hrate, hlast⟩ := s.callBy_kept due delay
    obtain ⟨hsame, hclock⟩ := s.bucket.refillBy_kept due (s.time + delay)
    have hminted := TokenBucket.refillBy_of_le hfits
    rw [Metering.durationSince_callBy hwait] at hminted hclock
    rw [hsame] at hrate
    rw [hclock] at hlast
    rw [Metering.minted, unminted, hminted, List.sum_cons]
    by_cases hzero : due s.bucket.rate (waiting + delay) = 0
    · -- nothing is due, and the wait goes on
      rw [if_pos hzero] at hlast
      have hlater : (s.callBy due delay).bucket.lastRefill + ((waiting + delay : Nat) : Int) =
          (s.callBy due delay).time := by
        rw [hlast, Metering.callBy_time, ← hwait]
        push_cast
        ring
      have hih := ih hlater hrest
      rw [hrate] at hih
      rw [if_pos hzero, hzero, UInt64.toNat_zero, Nat.zero_add, hih, Nat.add_assoc]
    · -- a refill: the fraction is dropped, and the wait starts again
      rw [if_neg hzero] at hlast
      have hnow : (s.callBy due delay).bucket.lastRefill + ((0 : Nat) : Int) = (s.callBy due delay).time := by
        rw [hlast, Metering.callBy_time]
        exact add_zero _
      have hih := ih hnow hrest
      rw [hrate, Nat.zero_add] at hih
      rw [if_neg hzero, ← Nat.add_assoc waiting, Nat.add_mul (waiting + delay), Nat.add_mul]
      push_cast at hih ⊢
      linarith

end Reckoning

/-- **The client of a bucket that is never full is at most one token short** of what has become due if and only
    if the fractions that the refills drop, with what is waiting at the end, are less than two tokens more than
    what was waiting at the start. -/
theorem polling_mints_iff (rate capacity : UInt32) (made : Instant) (before delays : List Duration)
    (h : (Metering.afterBy newTokensF64 rate capacity made before).NeverFull newTokensF64 delays) :
    wholeTokens rate delays.sum ≤ (Metering.afterBy newTokensF64 rate capacity made before).minted newTokensF64 delays + 1 ↔
      unminted newTokensF64 rate (Metering.afterBy newTokensF64 rate capacity made before).waiting delays <
        2 * 1000000000 + ((Metering.afterBy newTokensF64 rate capacity made before).waiting * rate.toNat : Nat) := by
  obtain ⟨hrate, hlast⟩ := Metering.kept_afterBy newTokensF64 rate capacity made before
  generalize Metering.afterBy newTokensF64 rate capacity made before = s at hrate hlast h ⊢
  have hwait : s.bucket.lastRefill + (s.waiting : Int) = s.time := by
    rw [Metering.waiting, durationSince, Int.toNat_of_nonneg (sub_nonneg.mpr hlast), add_sub_cancel]
  have haccounts := minted_add_unminted delays hwait h
  rw [hrate, Nat.add_mul] at haccounts
  rw [wholeTokens]
  generalize delays.sum * rate.toNat = due at haccounts ⊢
  omega

/-- One token in a second, and a call every 1.9 seconds: at the end of 9.5 seconds a client that always found
    the bucket empty has got five tokens of nine. -/
theorem polling_mints_iff_five :
    let s := Metering.afterBy newTokensF64 1 2 0 [0, 0]
    let delays := List.replicate 5 1900000000
    s.NeverFull newTokensF64 delays ∧
      (wholeTokens 1 delays.sum ≤ s.minted newTokensF64 delays + 1 ↔
        unminted newTokensF64 1 s.waiting delays < 2 * 1000000000 + (s.waiting * (1 : UInt32).toNat : Nat)) :=
  ⟨by decide +kernel, polling_mints_iff 1 2 0 [0, 0] _ (by decide +kernel)⟩

theorem polling_short :
    (Metering.afterBy newTokensF64 1 2 0 [0, 0]).NeverFull newTokensF64 (List.replicate 5 1900000000) ∧
      ¬ wholeTokens 1 (List.replicate 5 1900000000).sum ≤
        (Metering.afterBy newTokensF64 1 2 0 [0, 0]).minted newTokensF64 (List.replicate 5 1900000000) + 1 := by
  decide +kernel

end Smppd.Filter
