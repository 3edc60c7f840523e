/-
  RECOVERY of an endpoint whose breaker has opened, which there is none.

  The breaker is made to recover: while Open it lets the first request after the timeout through, and goes
  to HalfOpen (`allow_request`).  But `get_connection` asks `is_healthy` first, and `is_healthy` wants the
  breaker to be Closed; so does the cluster, when it looks for candidates.  Nobody asks an open breaker.

  And nobody else moves it: what is recorded while it is Open is ignored, and a health check does not touch
  it.  `opened_endpoint_is_lost`: from every state in which the breaker is Open, however long it has been
  and whatever the health checks say, every call is refused before it gets to the pool, and no
  continuation leads to a state in which this has changed.
-/
import Smppd.Cluster.Traffic

set_option linter.unusedVariables false

namespace Smppd.Cluster

open Smppd.Store Machine

/-- `Cluster::get_connection` up to the load balancer: the endpoints it may choose from. -/
def candidates (endpoints : List Endpoint.Cells) : List Endpoint.Cells :=
  endpoints.filter fun endpoint => endpoint.isHealthy

namespace Traffic

variable {maxConnections : UInt64} {c c' : System}

/-- The breaker is Open. -/
def Opened (c : System) : Prop := c.endpoint.circuitBreaker.state = .opened

/-- The health checks pass, and the breaker has been open for the timeout. -/
structure Due (c : System) : Prop where
  healthy : c.endpoint.healthy = true
  opened : Opened c
  timeout : ∃ since, c.endpoint.circuitBreaker.openedAt = some since ∧
    since + (CircuitBreakerConfig.openTimeout {}) ≤ c.now

/-- The endpoint takes no requests: a call of `get_connection` does not get to the pool, nor does it change
    anything, and the cluster does not consider the endpoint. -/
structure Excluded (maxConnections : UInt64) (c : System) : Prop where
  refuses : ∀ t c', step maxConnections c (.getConnection t) = some c' → t ∉ c'.waiting ∧ c' = c
  notCandidate : ∀ endpoints, c.endpoint ∉ candidates endpoints

/-! ## Nobody asks an open breaker -/

theorem Opened.not_healthy (h : Opened c) : c.endpoint.isHealthy = false := by
  unfold Endpoint.Cells.isHealthy CircuitBreaker.isClosed
  rw [h]
  exact Bool.and_false _

theorem Opened.getConnection (h : Opened c) : c.endpoint.getConnection c.now = (false, c.endpoint) := by
  unfold Endpoint.Cells.getConnection
  rw [if_pos (by simp [h.not_healthy])]

theorem Opened.excluded (h : Opened c) : Excluded maxConnections c := by
  refine ⟨fun t c' hstep => ?_, fun endpoints hmem => ?_⟩
  · obtain ⟨hfree, rfl⟩ := step_getConnection hstep
    rw [h.getConnection]
    exact ⟨hfree.1, rfl⟩
  · obtain ⟨-, hhealthy⟩ := List.mem_filter.mp hmem
    rw [h.not_healthy] at hhealthy
    cases hhealthy

/-! ## Nobody else moves it -/

/-- What is recorded while the breaker is Open is ignored. -/
theorem breaker_opened {endpoint : Endpoint.Cells} (h : endpoint.circuitBreaker.state = .opened)
    (now : Instant) (operation : CircuitBreaker.Operation) (hrecord : operation ≠ .allowRequest) :
    (endpoint.breaker now operation).2.circuitBreaker = endpoint.circuitBreaker := by
  unfold Endpoint.Cells.breaker
  rw [CircuitBreaker.perform_record_opened now h hrecord]

/-- **The step lemma**: an open breaker stays open. -/
theorem Opened.step (h : Opened c) {move : Move} (hstep : Traffic.step maxConnections c move = some c') :
    Opened c' := by
  unfold Opened at h ⊢
  cases move with
  | wait d =>
    cases hstep
    exact h
  | getConnection t =>
    obtain ⟨-, rfl⟩ := step_getConnection hstep
    dsimp only
    rw [Opened.getConnection h]
    exact h
  | pooled t conn =>
    obtain ⟨-, rfl⟩ := step_pooled hstep
    cases conn with
    | true => exact h
    | false => exact (congrArg _ (breaker_opened h c.now .recordFailure (by decide))).trans h
  | drop t =>
    obtain ⟨-, rfl⟩ := step_drop hstep
    exact h
  | returnConnection success =>
    cases hstep
    cases success with
    | true => exact (congrArg _ (breaker_opened h c.now .recordSuccess (by decide))).trans h
    | false => exact (congrArg _ (breaker_opened h c.now .recordFailure (by decide))).trans h
  | check result =>
    -- a health check does not touch the breaker
    cases hstep
    obtain ⟨health, state, healthy, hframe⟩ := c.endpoint.performHealthCheck_frame result
    dsimp only
    rw [hframe]
    exact h

/-- **An endpoint whose breaker has opened is lost**: even when it is due to recover it is excluded, and so
    it is in every state that any continuation leads to, with its breaker still Open. -/
theorem opened_endpoint_is_lost (config : HealthCheckConfig) (maxConnections : UInt64) (now : Instant)
    (moves : List Move) (c : System) (hrun : run (step maxConnections) (.start config now) moves = some c)
    (hdue : Due c) :
    Excluded maxConnections c ∧
      ∀ more c', run (step maxConnections) c more = some c' → Opened c' ∧ Excluded maxConnections c' := by
  refine ⟨hdue.opened.excluded, fun more c' hmore => ?_⟩
  have hopened : Opened c' := run_inv (fun s a s' hs hstep => Opened.step hs hstep) hdue.opened hmore
  exact ⟨hopened, hopened.excluded⟩

/-- The pool gives no connection five times, and half a minute passes. -/
def outage : List Move :=
  (List.replicate 5 [.getConnection 0, .pooled 0 false]).flatten ++ [.wait (fromSecs 30)]

/-- Nothing helps: not a health check that passes, nor a day. -/
theorem outage_is_for_ever :
    ∃ c, run (step 10) (.start {} 0) outage = some c ∧ Due c ∧ ∀ more c', run (step 10) c more = some c' →
      Opened c' ∧ Excluded 10 c' :=
  ⟨_, rfl, ⟨rfl, rfl, _, rfl, by decide⟩,
    (opened_endpoint_is_lost {} 10 0 outage _ rfl ⟨rfl, rfl, _, rfl, by decide⟩).2⟩

/-- The endpoint is due to recover: the call is refused, the breaker is still Open, and the cluster has no
    candidate. -/
theorem outage_refuses : ∃ c, run (step 10) (.start {} 0) outage = some c ∧ Due c ∧
    (c.endpoint.getConnection c.now).1 = false ∧
    (c.endpoint.getConnection c.now).2.circuitBreaker.state = .opened ∧
    candidates [c.endpoint] = [] :=
  ⟨_, rfl, ⟨rfl, rfl, _, rfl, by decide⟩, rfl, rfl, rfl⟩

end Traffic

end Smppd.Cluster
