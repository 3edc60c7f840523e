/-
  BACKOFF: how long a message waits between two retries.

  `calculate_backoff` doubles the base delay once for each attempt the message has been through, up to a
  cap.  The doubling is right; the exponent is not.  It is the attempt counter, and a pass in which every
  cluster fails leaves that alone (`pass_marks`).  So however many passes fail in a row, each schedules the
  SAME delay: the one the counter stood for when the first of them looked.

  * `calculateBackoff_eq` — without overflow it is the doubled delay, capped;
  * `passes_mark` — every failing pass of a sequence hands that one delay to `mark_retry`, in either back end;
  * `passes_schedule` — in memory, where the time of the next retry is kept, that is when it is scheduled for;
  * `min_double_iff` — which agrees with a doubling delay only if the cap is there from the start, or
    there is nothing to double, or there is one pass only;
  * `backoff_iff` — and so do the passes.
-/
import Smppd.Forwarder.RetryBound

set_option linter.unusedVariables false

namespace Smppd.Forwarder

open Smppd.Store Smppd.Gateway Prog

variable {D S : Type}

/-! ## The delay of one pass -/

/-- The base delay in milliseconds. -/
def RetryConfig.base (config : RetryConfig) : Nat := asMillis config.baseDelay

/-- The cap in milliseconds. -/
def RetryConfig.cap (config : RetryConfig) : Nat := asMillis config.maxDelay

/-- The two delays and the product fit in 64 bits. -/
structure RetryConfig.Fits (config : RetryConfig) (attempts : UInt32) : Prop where
  base : config.base < 2 ^ 64
  cap : config.cap < 2 ^ 64
  product : config.base * 2 ^ attempts.toNat < 2 ^ 64

/-- Without overflow, `calculate_backoff` doubles and caps. -/
theorem calculateBackoff_eq {config : RetryConfig} {attempts : UInt32} (h : config.Fits attempts)
    (hfew : attempts.toNat < 64) :
    config.calculateBackoff attempts = fromMillis (min (config.base * 2 ^ attempts.toNat) config.cap) := by
  have hpow : 2 ^ attempts.toNat < 2 ^ 64 := Nat.pow_lt_pow_right (by decide) hfew
  have hproduct : (UInt64.ofNat config.base * UInt64.ofNat (2 ^ attempts.toNat)).toNat =
      config.base * 2 ^ attempts.toNat := by
    rw [UInt64.toNat_mul, UInt64.toNat_ofNat_of_lt' h.base, UInt64.toNat_ofNat_of_lt' hpow]
    exact Nat.mod_eq_of_lt h.product
  have hcap : (UInt64.ofNat config.cap).toNat = config.cap := UInt64.toNat_ofNat_of_lt' h.cap
  show fromMillis (min (UInt64.ofNat config.base * UInt64.ofNat (2 ^ attempts.toNat))
    (UInt64.ofNat config.cap)).toNat = _
  rw [UInt64.toNat_min, hproduct, hcap]

theorem fromMillis_inj {a b : Nat} : fromMillis a = fromMillis b ↔ a = b := by
  exact Nat.mul_left_inj (by decide)

/-! ## The delays of a sequence of passes -/

/-- The message is to be retried this long after it was last written. -/
def Waits (m : StoredMessage) (delay : Duration) : Prop :=
  m.state = .retrying ∧ m.retryAt = some (m.updatedAt + delay)

/-- There is one such delay. -/
theorem Waits.unique {m : StoredMessage} {a b : Duration} (ha : Waits m a)
    (hb : Waits m b) : a = b := by
  have hsame := Option.some.inj (ha.2.symm.trans hb.2)
  exact Int.ofNat.inj (Int.add_left_cancel hsame)

/-- After the first `k` passes the message waits this long. -/
def Schedules (config : RetryConfig) (id : MessageId) (envs : Nat → Nat → Env) (w : MemWorld D) (k : Nat)
    (delay : Duration) : Prop :=
  ∃ m, (passes config id envs w k).storage.get id = some m ∧ Waits m delay

section Sequence

variable (config : RetryConfig) {id : MessageId} {envs : Nat → Nat → Env} {n k : Nat}

/-- **Every failing pass marks the message with the same delay.** -/
theorem passes_mark [Storage S] [ChanceStorage S] {w : World S (Output D)} {c : Chances} (h : Retries id c w.storage)
    (hfail : ∀ i < n, AttemptsFail id (envs i) (passes config id envs w i))
    (hgo : ∀ i < n, ¬ Chances.GoneIn S c (envs i)) (hk : k < n) :
    ∃ storeEnv : StoreEnv, (passes config id envs w (k + 1)).storage = (Storage.update storeEnv id
      (StoredMessage.markRetry storeEnv.clock (config.calculateBackoff c.attempts) (some 0x58) "all clusters failed")
      (passes config id envs w k).storage).1 := by
  have hretries := passes_going_on config h k (fun i hi => hfail i (by omega)) fun i hi => hgo i (by omega)
  obtain ⟨m, hget, hst, hattempts, hgone⟩ := hretries.found (envs k)
  have hmarks := pass_marks config hget hst (hfail k hk) fun hup => hgo k hk (hgone.mp hup)
  rw [hattempts] at hmarks
  exact hmarks

/-- In memory, every failing pass schedules the same delay. -/
theorem passes_schedule {w : MemWorld D} {m : StoredMessage} (hget : w.storage.get id = some m)
    (hst : m.state = .retrying) (hfail : ∀ i < n, AttemptsFail id (envs i) (passes config id envs w i))
    (hgo : ∀ i < n, ¬ GivesUp (envs i) m) (hk : k < n) :
    Schedules config id envs w (k + 1) (config.calculateBackoff m.attempts) := by
  have hretries := retries_of_get hget hst
  have hgo' : ∀ i < n, ¬ Chances.GoneIn MemoryStorage m.chances (envs i) :=
    fun i hi hgone => hgo i hi ((goneIn_iff m (envs i)).mp hgone)
  obtain ⟨m', hget', -⟩ := (passes_going_on config hretries k (fun i hi => hfail i (by omega))
    fun i hi => hgo' i (by omega)).state (envs k 0).store
  obtain ⟨storeEnv, hmark⟩ := passes_mark config hretries hfail hgo' hk
  rw [Schedules, hmark]
  exact ⟨_, (MemoryStorage.get_update id _ _ id).trans ((if_pos rfl).trans (congrArg (Option.map _) hget')), rfl, rfl⟩

end Sequence

/-! ## Doubling, and standing still -/

/-- A delay that stands still is a doubling one only where doubling changes nothing. -/
theorem min_double_iff {base cap a n : Nat} (hn : 0 < n) :
    (∀ k < n, min (base * 2 ^ a) cap = min (base * 2 ^ k) cap) ↔
      cap ≤ base ∨ base = 0 ∨ (n = 1 ∧ a = 0) := by
  constructor
  · intro h
    by_contra hnot
    obtain ⟨hcap, hbase, hlater⟩ : base < cap ∧ base ≠ 0 ∧ ¬ (n = 1 ∧ a = 0) := by
      refine ⟨?_, ?_, ?_⟩ <;> omega
    have hfirst : base * 2 ^ a = base := by
      have h₀ := h 0 hn
      rw [Nat.pow_zero, Nat.mul_one] at h₀
      omega
    have ha : a = 0 := by
      have hpow : 2 ^ a = 1 := Nat.eq_of_mul_eq_mul_left (Nat.pos_of_ne_zero hbase) (by rw [hfirst, Nat.mul_one])
      exact (Nat.pow_eq_one.mp hpow).resolve_left (by decide)
    -- the second delay would be longer
    have hsecond := h 1 (by omega)
    rw [hfirst, Nat.pow_one] at hsecond
    omega
  · rintro (hcap | rfl | ⟨rfl, rfl⟩) k hk
    · have hgrows : ∀ j, cap ≤ base * 2 ^ j := fun j =>
        Nat.le_trans hcap (Nat.le_mul_of_pos_right base (Nat.two_pow_pos j))
      rw [min_eq_right (hgrows a), min_eq_right (hgrows k)]
    · rw [Nat.zero_mul, Nat.zero_mul]
    · obtain rfl : k = 0 := by omega
      rfl

/-- **The delays of `n` failing passes double, up to the cap and without overflow, exactly when** the two delays
    and the product fit in 64 bits and there is nothing to double: the base has reached the cap, or is zero,
    or there is one pass only, of a message that was never attempted. -/
theorem backoff_iff (config : RetryConfig) (id : MessageId) (envs : Nat → Nat → Env) (w : MemWorld D)
    (m : StoredMessage) (n : Nat) (hn : 0 < n) (hget : w.storage.get id = some m) (hst : m.state = .retrying)
    (hfail : ∀ i < n, AttemptsFail id (envs i) (passes config id envs w i))
    (hgo : ∀ i < n, ¬ GivesUp (envs i) m) :
    (config.Fits m.attempts ∧ ∀ k, 1 ≤ k → k ≤ n →
      Schedules config id envs w k (fromMillis (min (config.base * 2 ^ (k - 1)) config.cap))) ↔
    config.Fits m.attempts ∧ (config.cap ≤ config.base ∨ config.base = 0 ∨ (n = 1 ∧ m.attempts = 0)) := by
  have hfew : m.attempts.toNat < 64 := by
    have hmax : ¬ maxRetries ≤ m.attempts := fun h => hgo 0 hn (Or.inl h)
    rw [UInt32.le_iff_toNat_le] at hmax
    have hfive : maxRetries.toNat = 5 := rfl
    omega
  have hzero : m.attempts = 0 ↔ m.attempts.toNat = 0 := by
    rw [← UInt32.toNat_inj]
    rfl
  refine and_congr_right fun hfits => ?_
  rw [hzero, ← min_double_iff hn]
  constructor
  · intro hall k hk
    obtain ⟨m', hget', hwaits'⟩ := hall (k + 1) (by omega) hk
    obtain ⟨m'', hget'', hwaits⟩ := passes_schedule config hget hst hfail hgo hk
    obtain rfl : m' = m'' := Option.some.inj (hget'.symm.trans hget'')
    have hsame := hwaits.unique hwaits'
    rw [calculateBackoff_eq hfits hfew, fromMillis_inj] at hsame
    exact hsame
  · intro hall k hk hkn
    obtain ⟨j, rfl⟩ : ∃ j, k = j + 1 := ⟨k - 1, by omega⟩
    have hschedules := passes_schedule config hget hst hfail hgo (show j < n from hkn)
    rw [calculateBackoff_eq hfits hfew, hall j hkn] at hschedules
    exact hschedules

/-! ## A configuration without backoff, and one with -/

/-- Every cluster is down, and the routing table still knows the way. -/
def downEnvs : Nat → Nat → Env := fun _ _ => down (some ⟨"route", "cluster", []⟩)

theorem downEnvs_fail (config : RetryConfig) (i : Nat) :
    AttemptsFail ⟨0⟩ (downEnvs i) (passes config ⟨0⟩ downEnvs waitingWorld i) :=
  attemptsFail_of_no_cluster _ fun _ => rfl

theorem downEnvs_go_on (i : Nat) : ¬ GivesUp (downEnvs i) waiting := by
  rintro (h | h | h)
  · exact absurd h (by decide)
  · exact absurd (show waiting.isExpired ⟨0, 0⟩ = true from h) (by decide)
  · cases h

/-- With the cap at the base delay there is nothing to double. -/
theorem backoff_of_flat :
    RetryConfig.Fits ⟨fromSecs 1, fromSecs 1⟩ waiting.attempts ∧ ∀ k, 1 ≤ k → k ≤ 3 →
      Schedules ⟨fromSecs 1, fromSecs 1⟩ ⟨0⟩ downEnvs waitingWorld k
        (fromMillis (min (RetryConfig.base ⟨fromSecs 1, fromSecs 1⟩ * 2 ^ (k - 1))
          (RetryConfig.cap ⟨fromSecs 1, fromSecs 1⟩))) :=
  (backoff_iff ⟨fromSecs 1, fromSecs 1⟩ ⟨0⟩ downEnvs waitingWorld waiting 3 (by decide) waitingWorld_get rfl
    (fun i _ => downEnvs_fail _ i) fun i _ => downEnvs_go_on i).mpr
    ⟨⟨by decide, by decide, by decide⟩, Or.inl (by decide)⟩

/-- From one second up to one minute: the second failing pass schedules one second again. -/
theorem backoff_stands_still :
    ¬ ∀ (config : RetryConfig) (envs : Nat → Nat → Env) (n : Nat), config.Fits waiting.attempts →
      (∀ i < n, AttemptsFail ⟨0⟩ (envs i) (passes config ⟨0⟩ envs waitingWorld i)) →
      (∀ i < n, ¬ GivesUp (envs i) waiting) → ∀ k, 1 ≤ k → k ≤ n →
        Schedules config ⟨0⟩ envs waitingWorld k
          (fromMillis (min (config.base * 2 ^ (k - 1)) config.cap)) := by
  intro hall
  have hfail : ∀ i < 2, AttemptsFail ⟨0⟩ (downEnvs i) (passes _ ⟨0⟩ downEnvs waitingWorld i) :=
    fun i _ => downEnvs_fail ⟨fromSecs 1, fromSecs 60⟩ i
  have hgo : ∀ i < 2, ¬ GivesUp (downEnvs i) waiting := fun i _ => downEnvs_go_on i
  have hfits : RetryConfig.Fits ⟨fromSecs 1, fromSecs 60⟩ waiting.attempts := ⟨by decide, by decide, by decide⟩
  obtain ⟨m, hget, hwaits⟩ := hall ⟨fromSecs 1, fromSecs 60⟩ downEnvs 2 hfits hfail hgo 2 (by decide) (by decide)
  obtain ⟨m', hget', hwaits'⟩ := passes_schedule ⟨fromSecs 1, fromSecs 60⟩ waitingWorld_get rfl hfail hgo
    (show 1 < 2 by decide)
  obtain rfl : m = m' := Option.some.inj (hget.symm.trans hget')
  exact absurd (hwaits.unique hwaits') (by decide)

end Smppd.Forwarder
