/-
  LOAD BALANCERS (`src/cluster/lb.rs`) and the choice of an endpoint in `src/cluster/mod.rs`.

  A balancer chooses from a list of anything that has a count of active connections; the cluster hands it
  its healthy endpoints.  Weights and scores are computed in `Overflow`, so that a choice that is `.ok` is
  the same in a debug and in a release build.  Counters wrap, as `fetch_add` does, and a shift drops what it
  pushes out.  Positions and lengths are natural numbers: the sums that are formed of them stay below twice
  the length of a list (`PowerOfTwoChoices.sum_lt`), and a list in memory is much shorter than that; the
  capacity that a ring asks for, a hundred times the number of endpoints, fits for the same reason.
-/
import Mathlib.Data.List.Sort
import Smppd.Lib.BinarySearch
import Smppd.Lib.Overflow
import Smppd.Cluster.Endpoint

set_option linter.dupNamespace false

namespace Smppd.Cluster

open Overflow

variable {α : Type}

/-! ## Counters -/

/-- Round-robin load balancer. -/
structure RoundRobin where
  counter : UInt64 := 0

/-- `RoundRobin::select`. -/
def RoundRobin.select (self : RoundRobin) (endpoints : List α) : Option α × RoundRobin :=
  if endpoints.isEmpty then (none, self)
  else (endpoints[self.counter.toNat % endpoints.length]?, ⟨self.counter + 1⟩)

/-- The pseudo-random step of `Random::select` and of `PowerOfTwoChoices::random`. -/
def xorshift (counter : UInt64) : UInt64 :=
  let s := if counter = 0 then 1 else counter
  let s := s ^^^ (s <<< 13)
  let s := s ^^^ (s >>> 7)
  s ^^^ (s <<< 17)

/-- Random load balancer. -/
structure Random where
  counter : UInt64 := 0

/-- `Random::select`. -/
def Random.select (self : Random) (endpoints : List α) : Option α × Random :=
  if endpoints.isEmpty then (none, self)
  else
    let s := xorshift self.counter
    (endpoints[s.toNat % endpoints.length]?, ⟨s⟩)

/-- Power of two choices load balancer. -/
structure PowerOfTwoChoices where
  counter : UInt64 := 0

namespace PowerOfTwoChoices

/-- `PowerOfTwoChoices::random`. -/
def random (self : PowerOfTwoChoices) : UInt64 × PowerOfTwoChoices :=
  let s := xorshift self.counter
  (s, ⟨s⟩)

/-- The first position that is compared. -/
def first (r n : Nat) : Nat := r % n

/-- The second position, from another number and the first. -/
def second (r n i : Nat) : Nat := (r % (n - 1) + i + 1) % n

/-- The two positions that are compared among `n` endpoints, and the state after them. -/
def positions (self : PowerOfTwoChoices) (n : Nat) : (Nat × Nat) × PowerOfTwoChoices :=
  let (r, self) := self.random
  let i := first r.toNat n
  let (r, self) := self.random
  ((i, second r.toNat n i), self)

/-- `PowerOfTwoChoices::select`. -/
def select (self : PowerOfTwoChoices) (active : α → UInt64) (endpoints : List α) :
    Option α × PowerOfTwoChoices :=
  match endpoints with
  | [] => (none, self)
  | [ep] => (some ep, self)
  | _ :: _ :: _ =>
    let ((i, j), self) := self.positions endpoints.length
    (do
      let a ← endpoints[i]?
      let b ← endpoints[j]?
      if active a ≤ active b then pure a else pure b, self)

end PowerOfTwoChoices

/-! ## Least connections -/

/-- `LeastConnections::select`. -/
def LeastConnections.select (active : α → UInt64) (endpoints : List α) : Except Overflow (Option α) :=
  minBy (fun a b => pure (decide (active b < active a))) endpoints

/-- Weighted least connections load balancer. -/
structure WeightedLeastConn where
  weights : List UInt32

namespace WeightedLeastConn

/-- `WeightedLeastConn::new`. -/
def new (endpoints : List EndpointConfig) : WeightedLeastConn := ⟨endpoints.map fun e => max e.weight 1⟩

/-- The weight for a position of the list. -/
def weight (self : WeightedLeastConn) (i : Nat) : Nat := (self.weights[i]?.getD 1).toNat

/-- The comparison of `select`: whether the first score is the larger. -/
def greater (self : WeightedLeastConn) (active : α → UInt64) (a b : α × Nat) : Except Overflow Bool := do
  let scoreA ← usize ((active a.1).toNat * self.weight b.2)
  let scoreB ← usize ((active b.1).toNat * self.weight a.2)
  pure (decide (scoreB < scoreA))

/-- `WeightedLeastConn::select`. -/
def select (self : WeightedLeastConn) (active : α → UInt64) (endpoints : List α) :
    Except Overflow (Option α) := do
  let best ← minBy (self.greater active) endpoints.zipIdx
  pure (best.map Prod.fst)

end WeightedLeastConn

/-! ## Weights -/

/-- Weighted load balancer. -/
structure Weighted where
  weights : List UInt32
  totalWeight : Nat
  counter : UInt64 := 0

namespace Weighted

/-- `Weighted::new`. -/
def new (endpoints : List EndpointConfig) : Except Overflow Weighted := do
  let weights := endpoints.map fun e => e.weight
  let totalWeight ← sum (2 ^ 32) 0 (weights.map UInt32.toNat)
  pure { weights := weights, totalWeight := totalWeight }

/-- The loop of `select`, from a position and what has been added up before it. -/
def walk (weights : List UInt32) (target : Nat) : Nat → Nat → List α → Except Overflow (Option α)
  | _, _, [] => pure none
  | accumulated, i, endpoint :: endpoints => do
    let weight := (weights[i]?.getD 1).toNat
    let accumulated ← u32 (accumulated + weight)
    if target < accumulated then pure (some endpoint) else walk weights target accumulated (i + 1) endpoints

/-- `Weighted::select`. -/
def select (self : Weighted) (endpoints : List α) : Except Overflow (Option α) × Weighted :=
  if endpoints.isEmpty ∨ self.totalWeight = 0 then (pure none, self)
  else
    let target := self.counter.toUInt32.toNat % self.totalWeight
    (do
      let found ← walk self.weights target 0 0 endpoints
      pure (found.or endpoints.head?), { self with counter := self.counter + 1 })

end Weighted

/-! ## Consistent hashing -/

/-- Consistent hash load balancer: hashes with the positions of their endpoints, sorted by hash. -/
structure ConsistentHash where
  ring : List (UInt64 × Nat)
  replicas : Nat
  counter : UInt64 := 0

namespace ConsistentHash

/-- `ConsistentHash::hash`: FNV-1a over the bytes of the key. -/
def hash (key : String) : UInt64 :=
  (key.toList.flatMap String.utf8EncodeChar).foldl (fun hash byte => (hash ^^^ byte.toUInt64) * 1099511628211)
    14695981039346656037

/-- The virtual nodes of an endpoint. -/
def virtualNodes (replicas : Nat) (endpoint : EndpointConfig) (idx : Nat) : List (UInt64 × Nat) :=
  (List.range replicas).map fun i => (hash s!"{endpoint.address}:{i}", idx)

/-- The virtual nodes of all endpoints, in the order in which they are created. -/
def nodes (endpoints : List EndpointConfig) (replicas : Nat) : List (UInt64 × Nat) :=
  endpoints.zipIdx.flatMap fun e => virtualNodes replicas e.1 e.2

/-- `ConsistentHash::new`. -/
def new (endpoints : List EndpointConfig) (replicas : Nat) : ConsistentHash :=
  let replicas := if replicas = 0 then 100 else replicas
  { ring := (nodes endpoints replicas).insertionSort fun a b => a.1 ≤ b.1, replicas := replicas }

/-- `ConsistentHash::select_by_key`. -/
def selectByKey (self : ConsistentHash) (key : String) : Option Nat :=
  if self.ring.isEmpty then none
  else
    let hash := hash key
    let idx := match BinarySearch.searchBy (fun node => compare node.1.toNat hash.toNat) self.ring with
      | .ok idx => idx
      | .error idx => if self.ring.length ≤ idx then 0 else idx
    self.ring[idx]?.map Prod.snd

/-- `ConsistentHash::select`. -/
def select (self : ConsistentHash) (endpoints : List α) : Option α × ConsistentHash :=
  if endpoints.isEmpty then (none, self)
  else if self.ring.isEmpty then
    (endpoints[self.counter.toNat % endpoints.length]?, { self with counter := self.counter + 1 })
  else (endpoints[self.counter.toNat % endpoints.length]?, { self with counter := self.counter + 1 })

end ConsistentHash

/-! ## The balancer of a cluster -/

/-- A load balancer. -/
inductive LoadBalancer where
  | roundRobin (self : RoundRobin)
  | leastConn
  | weighted (self : Weighted)
  | random (self : Random)
  | p2c (self : PowerOfTwoChoices)
  | consistentHash (self : ConsistentHash)
  | weightedLeastConn (self : WeightedLeastConn)

/-- The balancer that `Cluster::new` builds. -/
def LoadBalancer.new (config : ClusterConfig) : Except Overflow LoadBalancer :=
  match config.loadBalancer with
  | .roundRobin => pure (.roundRobin {})
  | .leastConn => pure .leastConn
  | .weighted => do
    let self ← Weighted.new config.endpoints
    pure (.weighted self)
  | .random => pure (.random {})
  | .p2c => pure (.p2c {})
  | .consistentHash => pure (.consistentHash (.new config.endpoints 100))
  | .weightedLeastConn => pure (.weightedLeastConn (.new config.endpoints))

/-- `LoadBalancer::select`. -/
def LoadBalancer.select (active : α → UInt64) (endpoints : List α) :
    LoadBalancer → Except Overflow (Option α) × LoadBalancer
  | .roundRobin self => let (chosen, self) := self.select endpoints; (pure chosen, .roundRobin self)
  | .leastConn => (LeastConnections.select active endpoints, .leastConn)
  | .weighted self => let (chosen, self) := self.select endpoints; (chosen, .weighted self)
  | .random self => let (chosen, self) := self.select endpoints; (pure chosen, .random self)
  | .p2c self => let (chosen, self) := self.select active endpoints; (pure chosen, .p2c self)
  | .consistentHash self => let (chosen, self) := self.select endpoints; (pure chosen, .consistentHash self)
  | .weightedLeastConn self => (self.select active endpoints, .weightedLeastConn self)

/-- The healthy endpoints of a cluster, in the order of the configuration. -/
def Cluster.healthy (self : Cluster) (cells : Endpoint → Endpoint.Cells) : List Endpoint :=
  self.endpoints.filter fun ep => (cells ep).isHealthy

/-- `Cluster::get_connection` up to the pool: the endpoint it asks for a connection, if it asks one. -/
def Cluster.selectEndpoint (self : Cluster) (cells : Endpoint → Endpoint.Cells) (lb : LoadBalancer) :
    Except Overflow (Option Endpoint) × LoadBalancer :=
  if (self.healthy cells).isEmpty then (pure none, lb)
  else lb.select (fun ep => (cells ep).activeConnections) (self.healthy cells)

/-- The choices of a cluster for one message after the other, each with the endpoints as they are then. -/
def Cluster.choices (self : Cluster) :
    LoadBalancer → List (Endpoint → Endpoint.Cells) → List (Except Overflow (Option Endpoint))
  | _, [] => []
  | lb, cells :: rest =>
    let (chosen, lb) := self.selectEndpoint cells lb
    chosen :: self.choices lb rest

/-- The balancer after these messages. -/
def Cluster.afterwards (self : Cluster) : LoadBalancer → List (Endpoint → Endpoint.Cells) → LoadBalancer
  | lb, [] => lb
  | lb, cells :: rest => self.afterwards (self.selectEndpoint cells lb).2 rest

@[simp] theorem Cluster.choices_nil (self : Cluster) (lb : LoadBalancer) : self.choices lb [] = [] := rfl

@[simp] theorem Cluster.choices_cons (self : Cluster) (lb : LoadBalancer) (cells : Endpoint → Endpoint.Cells)
    (rest : List (Endpoint → Endpoint.Cells)) : self.choices lb (cells :: rest) =
      (self.selectEndpoint cells lb).1 :: self.choices (self.selectEndpoint cells lb).2 rest := rfl

/-! ## The endpoints of a cluster -/

theorem length_buildEndpoints (cluster : String) (configs : List EndpointConfig) :
    (buildEndpoints cluster configs).length = configs.length := List.length_mapIdx

/-- The endpoints of a cluster are told apart by their positions. -/
theorem nodup_buildEndpoints (cluster : String) (configs : List EndpointConfig) :
    (buildEndpoints cluster configs).Nodup := by
  refine List.pairwise_iff_getElem.mpr fun i j hi hj hij h => ?_
  have hindex : i = j := by
    simp only [buildEndpoints, List.getElem_mapIdx] at h
    exact congrArg Endpoint.index h
  omega

theorem nodup_healthy (config : ClusterConfig) (cells : Endpoint → Endpoint.Cells) :
    ((Cluster.new config).healthy cells).Nodup :=
  (nodup_buildEndpoints config.name config.endpoints).filter _

theorem mem_healthy {self : Cluster} {cells : Endpoint → Endpoint.Cells} {ep : Endpoint} :
    ep ∈ self.healthy cells ↔ ep ∈ self.endpoints ∧ (cells ep).isHealthy = true := List.mem_filter

/-- The cells of endpoints of which just these are healthy, and none has a connection. -/
def cellsOf (up : Endpoint → Bool) (ep : Endpoint) : Endpoint.Cells :=
  { Endpoint.Cells.new {} with healthy := up ep }

theorem isHealthy_cellsOf (up : Endpoint → Bool) (ep : Endpoint) : (cellsOf up ep).isHealthy = up ep :=
  Bool.and_true _

end Smppd.Cluster
