/-
  ATTEMPTS: what the forwarders make of an endpoint's breaker.

  An attempt takes a connection of a cluster, sends a message over it, looks at what comes back, and drops
  the connection.  The breaker is to count the attempts that fail in a row, and to open when there are
  enough of them.  The forwarders know how an attempt has ended, and tell nobody: `return_connection`, which
  would tell the breaker, is called by none of the three.  What the breaker hears of is one thing only, a
  pool that gives no connection.

  So it hears of some failures and of no success.  It counts as it should all along a run exactly when the
  rest does not matter (`attempts_counted_iff`): no attempt that gets a connection fails, and none succeeds
  at an endpoint while failures are counted there.

  The load balancer may choose any endpoint that the cluster offers it.
-/
import Smppd.Cluster.Recovery
import Smppd.Gateway.Calls

set_option linter.unusedVariables false

namespace Smppd.Cluster.Attempts

open Smppd.Store Smppd.Gateway Machine

/-! ## Attempts, one after the other -/

/-- The forwarders take a message for accepted when a `submit_sm_resp` with status zero has come back. -/
def accepted : Reply → Bool
  | .submitSmResp status _ => decide (status = 0)
  | _ => false

/-- An attempt at an endpoint of a cluster of `n`. -/
structure Attempt (n : Nat) where
  /-- The time since the last one. -/
  after : Duration
  /-- The endpoint the load balancer has chosen. -/
  selected : Fin n
  /-- The time it waits for the pool. -/
  waited : Duration
  /-- What has come back over the connection, if the pool has given one. -/
  upstream : Option Reply

/-- How an attempt has ended. -/
def outcome : Option Reply → Outcome
  | some reply => if accepted reply then .success else .failure
  | none => .failure

/-- The endpoints of a cluster, the time, and how the attempts at each endpoint have ended, the newest
    first. -/
structure System (n : Nat) where
  endpoints : Fin n → Endpoint.Cells
  now : Instant
  attempts : Fin n → List Outcome

/-- A new cluster. -/
def System.start (n : Nat) (config : HealthCheckConfig) (now : Instant) : System n :=
  ⟨fun _ => .new config, now, fun _ => []⟩

/-- What an attempt does to the endpoint, and how it ends there: `get_connection`, and the rest of it when
    the pool has been asked.  Sending, and dropping the connection, do nothing to the endpoint. -/
def attemptAt (endpoint : Endpoint.Cells) (now : Instant) (waited : Duration) (upstream : Option Reply) :
    Outcome × Endpoint.Cells :=
  let (asks, endpoint) := endpoint.getConnection now
  if asks then (outcome upstream, endpoint.gotConnection (now + waited) upstream.isSome)
  else (.failure, endpoint)

variable {n : Nat}

/-- An attempt, at one of the endpoints that the cluster has for candidates. -/
def step (c : System n) (a : Attempt n) : Option (System n) :=
  if (c.endpoints a.selected).isHealthy then
    let (ended, endpoint) := attemptAt (c.endpoints a.selected) (c.now + a.after) a.waited a.upstream
    some {
      endpoints := Function.update c.endpoints a.selected endpoint
      now := c.now + a.after + a.waited
      attempts := Function.update c.attempts a.selected (ended :: c.attempts a.selected) }
  else none

/-! ## What the breaker counts -/

/-- The breaker counts the failures since the last success, and is Open when there are enough of them. -/
structure Counts (endpoint : Endpoint.Cells) (attempts : List Outcome) : Prop where
  failures : endpoint.circuitBreaker.failures.toNat = failuresInARow attempts
  opened : endpoint.circuitBreaker.state = .opened ↔
    (CircuitBreakerConfig.failureThreshold {}).toNat ≤ failuresInARow attempts

/-- Every endpoint's breaker does. -/
def Counting (c : System n) : Prop := ∀ i, Counts (c.endpoints i) (c.attempts i)

/-- The breaker need hear of nothing but the pool: the attempt gets no connection, or the message is accepted
    while no failure is counted. -/
def PoolTellsAll (c : System n) (a : Attempt n) : Prop :=
  ∀ reply, a.upstream = some reply →
    accepted reply = true ∧ (c.endpoints a.selected).circuitBreaker.failures = 0

theorem isHealthy_iff {endpoint : Endpoint.Cells} :
    endpoint.isHealthy = true ↔ endpoint.healthy = true ∧ endpoint.circuitBreaker.state = .closed := by
  unfold Endpoint.Cells.isHealthy CircuitBreaker.isClosed
  rw [Bool.and_eq_true, decide_eq_true_iff]

/-- A closed breaker admits, and nothing changes before the pool has answered. -/
theorem getConnection_of_isHealthy {endpoint : Endpoint.Cells} (h : endpoint.isHealthy = true)
    (now : Instant) : endpoint.getConnection now = (true, endpoint) := by
  have hclosed : endpoint.circuitBreaker.state ≠ .opened := by
    rw [(isHealthy_iff.mp h).2]
    decide
  unfold Endpoint.Cells.getConnection Endpoint.Cells.breaker
  rw [if_neg (not_not.mpr h), CircuitBreaker.perform_allowRequest now hclosed]
  rfl

theorem attemptAt_eq {endpoint : Endpoint.Cells} (h : endpoint.isHealthy = true) (now : Instant)
    (waited : Duration) (upstream : Option Reply) :
    attemptAt endpoint now waited upstream =
      (outcome upstream, endpoint.gotConnection (now + waited) upstream.isSome) := by
  unfold attemptAt
  rw [getConnection_of_isHealthy h]
  rfl

/-- What a step does. -/
theorem step_eq_some {c c' : System n} {a : Attempt n} (h : step c a = some c') :
    (c.endpoints a.selected).isHealthy = true ∧ c' = {
      endpoints := Function.update c.endpoints a.selected
        ((c.endpoints a.selected).gotConnection (c.now + a.after + a.waited) a.upstream.isSome)
      now := c.now + a.after + a.waited
      attempts := Function.update c.attempts a.selected (outcome a.upstream :: c.attempts a.selected) } := by
  obtain ⟨hhealthy, heq⟩ := Option.ite_none_right_eq_some.mp h
  rw [attemptAt_eq hhealthy] at heq
  exact ⟨hhealthy, (Option.some.inj heq).symm⟩

/-- A pool that gives no connection is counted. -/
theorem Counts.refused {endpoint : Endpoint.Cells} {attempts : List Outcome} (h : Counts endpoint attempts)
    (hclosed : endpoint.circuitBreaker.state = .closed) (now : Instant) :
    Counts (endpoint.gotConnection now false) (.failure :: attempts) := by
  have hrow : failuresInARow (.failure :: attempts) = failuresInARow attempts + 1 := rfl
  have hlt : endpoint.circuitBreaker.failures.toNat < (CircuitBreakerConfig.failureThreshold {}).toNat := by
    rw [h.failures]
    refine Nat.lt_of_not_le fun hle => ?_
    have hopened := h.opened.mpr hle
    rw [hclosed] at hopened
    cases hopened
  have hcb : (endpoint.gotConnection now false).circuitBreaker =
      (CircuitBreaker.perform {} now endpoint.circuitBreaker .recordFailure).2 := rfl
  have hcount := toNat_add_one hlt
  have hreached := threshold_le_add_one_iff hlt
  rw [CircuitBreaker.perform_recordFailure_closed now hclosed] at hcb
  by_cases hopens : CircuitBreakerConfig.failureThreshold {} ≤ endpoint.circuitBreaker.failures + 1
  · rw [if_pos hopens] at hcb
    have hfull := hreached.mp hopens
    refine ⟨?_, ?_⟩
    · rw [hcb, hrow, ← h.failures]
      exact hcount
    · rw [hcb, hrow, ← h.failures, hfull]
      exact iff_of_true rfl (Nat.le_refl _)
  · rw [if_neg hopens] at hcb
    refine ⟨?_, ?_⟩
    · rw [hcb, hrow, ← h.failures]
      exact hcount
    · rw [hcb, hrow, ← h.failures]
      refine iff_of_false (fun hopened => ?_) fun hle => hopens (hreached.mpr ?_)
      · exact CircuitState.noConfusion (hclosed.symm.trans hopened)
      · omega

/-- **A breaker goes on counting right exactly when it need hear of nothing but the pool.** -/
theorem Counts.gotConnection_iff {endpoint : Endpoint.Cells} {attempts : List Outcome}
    (h : Counts endpoint attempts) (hclosed : endpoint.circuitBreaker.state = .closed) (now : Instant)
    (upstream : Option Reply) :
    Counts (endpoint.gotConnection now upstream.isSome) (outcome upstream :: attempts) ↔
      ∀ reply, upstream = some reply → accepted reply = true ∧ endpoint.circuitBreaker.failures = 0 := by
  cases upstream with
  | none => exact iff_of_true (h.refused hclosed now) nofun
  | some reply =>
    have hcb : (endpoint.gotConnection now true).circuitBreaker = endpoint.circuitBreaker := rfl
    have hone : (∀ reply', some reply = some reply' → accepted reply' = true ∧
        endpoint.circuitBreaker.failures = 0) ↔
        accepted reply = true ∧ endpoint.circuitBreaker.failures = 0 :=
      ⟨fun hall => hall reply rfl, fun hand reply' heq => by
        cases heq
        exact hand⟩
    rw [hone]
    by_cases haccepted : accepted reply = true
    · have houtcome : outcome (some reply) = .success := if_pos haccepted
      have hrow : failuresInARow (.success :: attempts) = 0 := rfl
      rw [houtcome]
      constructor
      · intro hcounts
        have hzero := hcounts.failures
        rw [hrow] at hzero
        exact ⟨haccepted, UInt32.toNat_inj.mp hzero⟩
      · rintro ⟨-, hnone⟩
        refine ⟨?_, ?_⟩
        · rw [hrow]
          exact UInt32.toNat_inj.mpr hnone
        · rw [hrow]
          refine iff_of_false (fun hopened => ?_) (by decide)
          exact CircuitState.noConfusion (hclosed.symm.trans hopened)
    · -- the attempt has failed, and nobody has told the breaker
      have houtcome : outcome (some reply) = .failure := if_neg haccepted
      have hrow : failuresInARow (.failure :: attempts) = failuresInARow attempts + 1 := rfl
      rw [houtcome]
      refine iff_of_false (fun hcounts => ?_) fun hand => haccepted hand.1
      have hmore := hcounts.failures
      have hsame := h.failures
      rw [hrow] at hmore
      exact absurd (hsame.symm.trans hmore) (Nat.ne_of_lt (Nat.lt_succ_self _))

/-- **The step lemma.** -/
theorem counting_iff {c c' : System n} (h : Counting c) {a : Attempt n} (hstep : step c a = some c') :
    Counting c' ↔ PoolTellsAll c a := by
  obtain ⟨hhealthy, rfl⟩ := step_eq_some hstep
  have hclosed := (isHealthy_iff.mp hhealthy).2
  have hselected := (h a.selected).gotConnection_iff hclosed (c.now + a.after + a.waited) a.upstream
  unfold PoolTellsAll
  rw [← hselected]
  constructor
  · intro hcounting
    have hat := hcounting a.selected
    dsimp only at hat
    rwa [Function.update_self, Function.update_self] at hat
  · intro hat i
    dsimp only
    by_cases hi : i = a.selected
    · subst hi
      rwa [Function.update_self, Function.update_self]
    · rw [Function.update_of_ne hi, Function.update_of_ne hi]
      exact h i

/-- **The breakers count the attempts that fail in a row exactly in the runs in which they need hear of
    nothing but the pool**: whatever endpoints there are, whichever the load balancer chooses, and whatever
    comes back. -/
theorem attempts_counted_iff (n : Nat) (config : HealthCheckConfig) (now : Instant)
    (attempts : List (Attempt n)) (reached : System n)
    (hrun : run step (.start n config now) attempts = some reached) :
    (∀ before after c, attempts = before ++ after → run step (.start n config now) before = some c →
        Counting c) ↔
      Meets step PoolTellsAll (.start n config now) attempts := by
  have hstart : Counting (.start n config now) := fun i => ⟨rfl, iff_of_false nofun (show ¬ 5 ≤ 0 by decide)⟩
  exact (meets_iff_always (fun _ _ _ _ _ => trivial)
    (fun c a c' _ hcounting hstep => counting_iff hcounting hstep) trivial hstart hrun).symm

instance (c : System n) (a : Attempt n) : Decidable (PoolTellsAll c a) :=
  match h : a.upstream with
  | none => isTrue fun reply heq => nomatch h.symm.trans heq
  | some reply => decidable_of_iff
      (accepted reply = true ∧ (c.endpoints a.selected).circuitBreaker.failures = 0)
      ⟨fun hand reply' heq => by cases h.symm.trans heq; exact hand, fun hall => hall reply h⟩

/-- An attempt at the only endpoint. -/
def attempt (upstream : Option Reply) : Attempt 1 := ⟨0, 0, 0, upstream⟩

/-- A message is accepted, and then the pool fails. -/
def poolFailures : List (Attempt 1) :=
  attempt (some (.submitSmResp 0 "1")) :: List.replicate 5 (attempt none)

/-- That is counted right, and the breaker opens. -/
theorem pool_failures_counted :
    ∃ c, run step (.start 1 {} 0) poolFailures = some c ∧
      (c.endpoints 0).circuitBreaker.state = .opened ∧
      ∀ before after c, poolFailures = before ++ after →
        run step (.start 1 {} 0) before = some c → Counting c :=
  ⟨_, rfl, rfl, (attempts_counted_iff 1 {} 0 poolFailures _ rfl).mpr (by decide +kernel)⟩

/-- The pool fails every other time. -/
def everyOther : List (Attempt 1) :=
  attempt none :: (List.replicate 4 [attempt (some (.submitSmResp 0 "1")), attempt none]).flatten

/-- **The breaker opens although every other attempt has succeeded, and stays Closed although every message
    is lost.** -/
theorem attempts_miscounted :
    (∃ c, run step (.start 1 {} 0) everyOther = some c ∧
      (c.endpoints 0).circuitBreaker.state = .opened ∧ failuresInARow (c.attempts 0) = 1 ∧ ¬ Counting c) ∧
    (∃ c, run step (.start 1 {} 0) (List.replicate 5 (attempt (some .timeout))) = some c ∧
      (c.endpoints 0).circuitBreaker.state = .closed ∧ (c.endpoints 0).circuitBreaker.failures = 0 ∧
      failuresInARow (c.attempts 0) = 5 ∧ ¬ Counting c) :=
  ⟨⟨_, rfl, rfl, rfl, fun hcounting => absurd ((hcounting 0).opened.mp rfl) (show ¬ 5 ≤ 1 by decide)⟩,
    ⟨_, rfl, rfl, rfl, rfl, fun hcounting => absurd (hcounting 0).failures (show ¬ 0 = 5 by decide)⟩⟩

end Smppd.Cluster.Attempts
