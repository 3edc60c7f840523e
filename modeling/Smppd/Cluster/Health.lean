/-
  HEALTH CHECKS WITH HYSTERESIS.

  The endpoint goes from Healthy to Unhealthy when enough checks in a row have failed, and back when
  enough in a row have passed.  In the code that is two counters, each set to zero by the results that
  the other one counts, a state, and a flag for fast access that is written only when the state changes.

  What is meant is a function of the results so far (`expectedState`): only the CURRENT run counts, that is
  the results from the last one back that are like it.  `health_follows_results` says that the code computes
  it, for every pair of thresholds, zero included, and that the flag never disagrees with the state.  The
  counters have 32 bits, so this is for fewer than 2^32 checks.
-/
import Smppd.Cluster.Endpoint

set_option linter.unusedVariables false

namespace Smppd.Cluster.Health

open Endpoint

/-! ## What is meant -/

/-- The check has passed. -/
def passed : HealthState → Bool
  | .healthy => true
  | .unhealthy _ => false

/-- How many of the last checks in a row have passed, or have failed; the newest result is the first. -/
def streak (pass : Bool) (results : List HealthState) : Nat :=
  (results.takeWhile fun result => passed result = pass).length

/-- The state after these results, the newest first: the last one changes it if its run is long enough. -/
def expectedState (config : HealthCheckConfig) : List HealthState → EndpointState
  | [] => .healthy
  | .healthy :: earlier =>
    if config.healthyThreshold.toNat ≤ streak true (.healthy :: earlier) then .healthy
    else expectedState config earlier
  | .unhealthy reason :: earlier =>
    if config.unhealthyThreshold.toNat ≤ streak false (.unhealthy reason :: earlier) then .unhealthy
    else expectedState config earlier

section Streak

variable {pass : Bool} {result : HealthState} (earlier : List HealthState)

/-- A result like those counted goes on with their run. -/
theorem streak_same (h : passed result = pass) :
    streak pass (result :: earlier) = streak pass earlier + 1 := by
  unfold streak
  rw [List.takeWhile_cons, if_pos (decide_eq_true h), List.length_cons]

/-- Any other result ends it. -/
theorem streak_other (h : passed result ≠ pass) : streak pass (result :: earlier) = 0 := by
  unfold streak
  rw [List.takeWhile_cons, if_neg (by simpa using h), List.length_nil]

theorem streak_le_length (pass : Bool) (results : List HealthState) : streak pass results ≤ results.length :=
  (List.takeWhile_sublist _).length_le

end Streak

/-! ## What the code does -/

/-- The counters count the current run, and the state and the flag are as expected. -/
structure Follows (config : HealthCheckConfig) (results : List HealthState) (endpoint : Cells) : Prop where
  healthyThreshold : endpoint.health.healthyThreshold = config.healthyThreshold
  unhealthyThreshold : endpoint.health.unhealthyThreshold = config.unhealthyThreshold
  successes : endpoint.health.consecutiveSuccesses.toNat = streak true results
  failures : endpoint.health.consecutiveFailures.toNat = streak false results
  state : endpoint.state = expectedState config results
  flag : endpoint.healthy = decide (endpoint.state = .healthy)

variable {config : HealthCheckConfig} {results : List HealthState} {endpoint : Cells}

theorem follows_new (config : HealthCheckConfig) : Follows config [] (.new config) :=
  ⟨rfl, rfl, rfl, rfl, rfl, rfl⟩

/-- Where the flag goes with the state, it goes with the state that is set. -/
theorem setState_eq (endpoint : Cells) (state : EndpointState)
    (h : endpoint.healthy = decide (endpoint.state = .healthy)) :
    endpoint.setState state = { endpoint with state := state, healthy := decide (state = .healthy) } := by
  unfold Cells.setState
  split
  · rfl
  · rename_i hsame
    obtain rfl := not_not.mp hsame
    rw [← h]

/-- **What a check does**: the counters are those of the new run, and the state is set to `target` if
    that is long enough. -/
theorem Follows.mark {result : HealthState} {health : HealthChecker} {target : EndpointState} {mark : Bool}
    (h : Follows config results endpoint)
    (hthresholds : health.healthyThreshold = config.healthyThreshold ∧
      health.unhealthyThreshold = config.unhealthyThreshold)
    (hsuccesses : health.consecutiveSuccesses.toNat = streak true (result :: results))
    (hfailures : health.consecutiveFailures.toNat = streak false (result :: results))
    (hexpected : expectedState config (result :: results) =
      if mark then target else expectedState config results) :
    Follows config (result :: results)
      (if mark then { endpoint with health := health }.setState target
        else { endpoint with health := health }) := by
  cases mark with
  | false =>
    refine ⟨hthresholds.1, hthresholds.2, hsuccesses, hfailures, ?_, h.flag⟩
    rw [hexpected]
    exact h.state
  | true =>
    show Follows config (result :: results) ({ endpoint with health := health }.setState target)
    rw [setState_eq { endpoint with health := health } target h.flag]
    exact ⟨hthresholds.1, hthresholds.2, hsuccesses, hfailures, hexpected.symm, rfl⟩

/-- **The step lemma.** -/
theorem Follows.performHealthCheck (h : Follows config results endpoint) (hlength : results.length + 1 < 2 ^ 32)
    (result : HealthState) : Follows config (result :: results) (endpoint.performHealthCheck result) := by
  have hroom (pass : Bool) : streak pass results + 1 < 2 ^ 32 :=
    Nat.lt_of_le_of_lt (Nat.succ_le_succ (streak_le_length pass results)) hlength
  cases result with
  | healthy =>
    have hgrows : streak true (.healthy :: results) = streak true results + 1 := streak_same results rfl
    have hends : streak false (.healthy :: results) = 0 := streak_other results Bool.noConfusion
    have hcount : (endpoint.health.consecutiveSuccesses + 1).toNat = streak true (.healthy :: results) := by
      rw [toNat_succ (h.successes ▸ hroom true), h.successes, hgrows]
    refine h.mark ⟨h.healthyThreshold, h.unhealthyThreshold⟩ hcount hends.symm ?_
    have hmark : endpoint.health.healthyThreshold ≤ endpoint.health.consecutiveSuccesses + 1 ↔
        config.healthyThreshold.toNat ≤ streak true (.healthy :: results) := by
      rw [UInt32.le_iff_toNat_le, hcount, h.healthyThreshold]
    rw [expectedState]
    exact if_congr (hmark.symm.trans decide_eq_true_iff.symm) rfl rfl
  | unhealthy reason =>
    have hgrows : streak false (.unhealthy reason :: results) = streak false results + 1 :=
      streak_same results rfl
    have hends : streak true (.unhealthy reason :: results) = 0 := streak_other results Bool.noConfusion
    have hcount : (endpoint.health.consecutiveFailures + 1).toNat =
        streak false (.unhealthy reason :: results) := by
      rw [toNat_succ (h.failures ▸ hroom false), h.failures, hgrows]
    refine h.mark ⟨h.healthyThreshold, h.unhealthyThreshold⟩ hends.symm hcount ?_
    have hmark : endpoint.health.unhealthyThreshold ≤ endpoint.health.consecutiveFailures + 1 ↔
        config.unhealthyThreshold.toNat ≤ streak false (.unhealthy reason :: results) := by
      rw [UInt32.le_iff_toNat_le, hcount, h.unhealthyThreshold]
    rw [expectedState]
    exact if_congr (hmark.symm.trans decide_eq_true_iff.symm) rfl rfl

/-- **The run lemma.** -/
theorem Follows.run (h : Follows config results endpoint) (more : List HealthState)
    (hlength : results.length + more.length < 2 ^ 32) :
    Follows config (more.reverse ++ results) (more.foldl Cells.performHealthCheck endpoint) := by
  induction more generalizing results endpoint with
  | nil => exact h
  | cons result more ih =>
    rw [List.length_cons] at hlength
    have hleft : (result :: results).length + more.length < 2 ^ 32 := by
      rw [List.length_cons]
      omega
    rw [List.reverse_cons, List.append_assoc]
    exact ih (h.performHealthCheck (by omega) result) hleft

/-- **The state and the flag follow the results**: for all thresholds, and after every check of fewer than
    2^32, the state is the one expected of the results so far, and the flag says whether it is Healthy. -/
theorem health_follows_results (config : HealthCheckConfig) (results : List HealthState)
    (hlength : results.length < 2 ^ 32) :
    let endpoint := results.foldl Cells.performHealthCheck (.new config)
    endpoint.state = expectedState config results.reverse ∧
      (endpoint.healthy = true ↔ endpoint.state = .healthy) := by
  have h := (follows_new config).run results (by rw [List.length_nil]; omega)
  rw [List.append_nil] at h
  refine ⟨h.state, ?_⟩
  rw [h.flag]
  exact decide_eq_true_iff

/-- An endpoint goes down and comes up again. -/
def flapping : List HealthState :=
  [.unhealthy "timeout", .healthy, .unhealthy "timeout", .unhealthy "timeout", .unhealthy "timeout", .healthy]

/-- With the thresholds as they are by default it is Unhealthy, until it has passed once more. -/
theorem flapping_follows :
    expectedState {} flapping.reverse = .unhealthy ∧
    expectedState {} (.healthy :: flapping.reverse) = .healthy ∧
    (flapping.foldl Cells.performHealthCheck (.new {})).state = expectedState {} flapping.reverse :=
  ⟨rfl, rfl, (health_follows_results {} flapping (by decide)).1⟩

end Smppd.Cluster.Health
