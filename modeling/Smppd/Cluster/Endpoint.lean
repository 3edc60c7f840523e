/-
  An upstream ENDPOINT as it runs (`src/cluster/endpoint.rs`, `src/cluster/health.rs`).

  What is configured of it is in `Clusters`; here are the cells that change: the counters of the health
  checker, the circuit breaker, the state with its flag for fast access, and the count of connections in
  use that the load balancers compare.

  The methods are given from one `await` to the next.  `get_connection` has one, for the pool, and is two
  functions: what it does before, and what it makes of the pool's answer.  `set_state` has two, for a lock
  that only the loop of health checks writes; it is one function.  The breaker's methods have none; what
  they do when they overlap within is the subject of `BreakerRace`.

  The pool itself is in `Pool`; to the endpoint it is whether it gives a connection.  A health check
  connects with a client that is a crate's; here it is its result.
-/
import Smppd.Cluster.CircuitBreaker
import Smppd.Cluster.Clusters

namespace Smppd.Cluster

open Smppd.Store

/-! ## Health -/

/-- The thresholds of the health checks. -/
structure HealthCheckConfig where
  unhealthyThreshold : UInt32 := 3
  healthyThreshold : UInt32 := 2

/-- Health state result. -/
inductive HealthState where
  | healthy
  | unhealthy (reason : String)
  deriving DecidableEq

/-- Health checker for an endpoint. -/
structure HealthChecker where
  unhealthyThreshold : UInt32
  healthyThreshold : UInt32
  consecutiveFailures : UInt32 := 0
  consecutiveSuccesses : UInt32 := 0

namespace HealthChecker

/-- `HealthChecker::new`. -/
def new (config : HealthCheckConfig) : HealthChecker where
  unhealthyThreshold := config.unhealthyThreshold
  healthyThreshold := config.healthyThreshold

/-- `record_success`: whether the endpoint should be marked healthy. -/
def recordSuccess (self : HealthChecker) : Bool × HealthChecker :=
  let successes := self.consecutiveSuccesses + 1
  (decide (self.healthyThreshold ≤ successes),
    { self with consecutiveFailures := 0, consecutiveSuccesses := successes })

/-- `record_failure`: whether the endpoint should be marked unhealthy. -/
def recordFailure (self : HealthChecker) : Bool × HealthChecker :=
  let failures := self.consecutiveFailures + 1
  (decide (self.unhealthyThreshold ≤ failures),
    { self with consecutiveSuccesses := 0, consecutiveFailures := failures })

end HealthChecker

/-! ## The endpoint -/

/-- State of an endpoint. -/
inductive EndpointState where
  | healthy
  | unhealthy
  | draining
  deriving DecidableEq

/-- The cells of an endpoint. -/
structure Endpoint.Cells where
  health : HealthChecker
  circuitBreaker : CircuitBreaker := {}
  state : EndpointState := .healthy
  activeConnections : UInt64 := 0
  totalRequests : UInt64 := 0
  /-- Is healthy flag, for fast access. -/
  healthy : Bool := true

/-- `CircuitBreaker::is_closed`. -/
def CircuitBreaker.isClosed (self : CircuitBreaker) : Bool := self.state = .closed

namespace Endpoint.Cells

/-- `Endpoint::new`. -/
def new (config : HealthCheckConfig) : Cells := { health := .new config }

/-- `is_healthy`. -/
def isHealthy (self : Cells) : Bool := self.healthy && self.circuitBreaker.isClosed

/-- `set_state`. -/
def setState (self : Cells) (state : EndpointState) : Cells :=
  if self.state ≠ state then { self with state := state, healthy := decide (state = .healthy) } else self

/-- A call of a method of the breaker, which has the default configuration: what it answers, and the
    endpoint after it. -/
def breaker (self : Cells) (now : Instant) (operation : CircuitBreaker.Operation) : Option Bool × Cells :=
  let (answer, cb) := CircuitBreaker.perform {} now self.circuitBreaker operation
  (answer, { self with circuitBreaker := cb })

/-- `get_connection` up to the pool: whether it gets there. -/
def getConnection (self : Cells) (now : Instant) : Bool × Cells :=
  if ¬ self.isHealthy then (false, self)
  else
    let (allowed, self) := self.breaker now .allowRequest
    (decide (allowed = some true), self)

/-- The rest of `get_connection`: the pool has given a connection, or none. -/
def gotConnection (self : Cells) (now : Instant) (conn : Bool) : Cells :=
  if conn then
    { self with activeConnections := self.activeConnections + 1, totalRequests := self.totalRequests + 1 }
  else (self.breaker now .recordFailure).2

/-- `return_connection`. -/
def returnConnection (self : Cells) (now : Instant) (success : Bool) : Cells :=
  let self := { self with activeConnections := self.activeConnections - 1 }
  if success then (self.breaker now .recordSuccess).2 else (self.breaker now .recordFailure).2

/-- `perform_health_check`, on the result of the check. -/
def performHealthCheck (self : Cells) (result : HealthState) : Cells :=
  match result with
  | .healthy =>
    let (mark, health) := self.health.recordSuccess
    let self := { self with health := health }
    if mark then self.setState .healthy else self
  | .unhealthy _ =>
    let (mark, health) := self.health.recordFailure
    let self := { self with health := health }
    if mark then self.setState .unhealthy else self

/-! ## What each method leaves alone -/

theorem setState_frame (self : Cells) (state : EndpointState) :
    self.setState state = { self with state := state, healthy := (self.setState state).healthy } := by
  unfold setState
  split
  · rfl
  · rename_i hsame
    obtain rfl := not_not.mp hsame
    rfl

theorem performHealthCheck_frame (self : Cells) (result : HealthState) : ∃ health state healthy,
    self.performHealthCheck result = { self with health := health, state := state, healthy := healthy } := by
  unfold performHealthCheck
  cases result with
  | healthy =>
    dsimp only
    split
    · exact ⟨_, _, _, setState_frame _ _⟩
    · exact ⟨_, _, _, rfl⟩
  | unhealthy reason =>
    dsimp only
    split
    · exact ⟨_, _, _, setState_frame _ _⟩
    · exact ⟨_, _, _, rfl⟩

/-- Up to the pool, `get_connection` changes nothing but the breaker. -/
theorem getConnection_frame (self : Cells) (now : Instant) : ∃ cb,
    (self.getConnection now).2 = { self with circuitBreaker := cb } := by
  unfold getConnection
  split
  · exact ⟨_, rfl⟩
  · exact ⟨_, rfl⟩

end Endpoint.Cells

end Smppd.Cluster
