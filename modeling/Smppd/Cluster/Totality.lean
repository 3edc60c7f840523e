/-
  TOTALITY: whether a cluster that has a healthy endpoint always finds one.

  Five of the seven strategies do whatever is configured: they reduce a counter modulo the length of the list,
  or compare counts.  `Weighted` needs a total that is neither zero nor too large for its type, and
  `WeightedLeastConn` multiplies counts by weights.  The validator looks at no weight, so these are the
  configurations it lets through without being right (`always_finds_iff`).
-/
import Smppd.Config.Loader
import Smppd.Cluster.Affinity
import Smppd.Cluster.TwoChoices
import Smppd.Cluster.Weights

set_option linter.dupNamespace false

namespace Smppd.Cluster

open Overflow Cycle

variable {α : Type}

/-! ## What is asked -/

/-- The balancer is built, and after any number of calls a call finds a healthy endpoint if there is one, as
    long as no endpoint has more than `cap` connections.  No operation overflows on the way. -/
def AlwaysFinds (cap : UInt64) (config : ClusterConfig) : Prop :=
  ∃ lb, LoadBalancer.new config = .ok lb ∧
    ∀ (earlier : List (Endpoint → Endpoint.Cells)) (cells : Endpoint → Endpoint.Cells),
      (∀ ep ∈ (Cluster.new config).endpoints, (cells ep).activeConnections ≤ cap) →
      healthyOf config cells ≠ [] → ∃ ep ∈ healthyOf config cells,
        ((Cluster.new config).selectEndpoint cells ((Cluster.new config).afterwards lb earlier)).1 =
          .ok (some ep)

/-- What the strategies need: weights that make up a total of `u32` and are not all zero; weights that `usize`
    can hold the multiples of, unless nothing is compared. -/
def Steady (cap : UInt64) (config : ClusterConfig) : Prop :=
  match config.loadBalancer with
  | .weighted => (config.endpoints = [] ∨ 0 < (weightsOf config).sum) ∧ (weightsOf config).sum < 2 ^ 32
  | .weightedLeastConn => config.endpoints.length ≤ 1 ∨
      ∀ e ∈ config.endpoints, cap.toNat * max e.weight.toNat 1 < 2 ^ 64
  | _ => True

/-! ## What calls leave alone -/

/-- A balancer with its counter as at the start. -/
def LoadBalancer.reset : LoadBalancer → LoadBalancer
  | .roundRobin _ => .roundRobin {}
  | .leastConn => .leastConn
  | .weighted self => .weighted { self with counter := 0 }
  | .random _ => .random {}
  | .p2c _ => .p2c {}
  | .consistentHash self => .consistentHash { self with counter := 0 }
  | .weightedLeastConn self => .weightedLeastConn self

/-- A call moves the counter, and nothing else. -/
theorem reset_select (active : α → UInt64) (l : List α) (lb : LoadBalancer) :
    (lb.select active l).2.reset = lb.reset := by
  cases lb with
  | roundRobin self => rfl
  | leastConn => rfl
  | weighted self =>
    show LoadBalancer.weighted { (self.select l).2 with counter := 0 } = .weighted { self with counter := 0 }
    unfold Weighted.select
    split
    · rfl
    · rfl
  | random self => rfl
  | p2c self => rfl
  | consistentHash self =>
    show LoadBalancer.consistentHash { (self.select l).2 with counter := 0 } =
      .consistentHash { self with counter := 0 }
    rw [ConsistentHash.select_eq]
    split
    · rfl
    · rfl
  | weightedLeastConn self => rfl

theorem reset_afterwards (self : Cluster) (calls : List (Endpoint → Endpoint.Cells)) (lb : LoadBalancer) :
    (self.afterwards lb calls).reset = lb.reset := by
  induction calls generalizing lb with
  | nil => rfl
  | cons cells calls ih =>
    rw [Cluster.afterwards, ih]
    unfold Cluster.selectEndpoint
    split
    · rfl
    · exact reset_select _ _ lb

/-! ## What each strategy finds -/

/-- A list that is not empty has an element wherever a number falls modulo its length. -/
theorem exists_getElem?_mod {l : List α} (h : l ≠ []) (n : Nat) : ∃ a ∈ l, l[n % l.length]? = some a := by
  have hlt : n % l.length < l.length := Nat.mod_lt n (List.length_pos_of_ne_nil h)
  exact ⟨l[n % l.length], List.getElem_mem hlt, List.getElem?_eq_getElem hlt⟩

theorem isEmpty_ne {l : List α} (h : l ≠ []) : ¬ l.isEmpty = true := mt List.isEmpty_iff.mp h

theorem PowerOfTwoChoices.select_finds (self : PowerOfTwoChoices) (active : α → UInt64) {l : List α} (h : l ≠ []) :
    ∃ a ∈ l, (self.select active l).1 = some a := by
  rcases Nat.lt_or_ge l.length 2 with hlt | hge
  · match l with
    | [] => exact absurd rfl h
    | [a] => exact ⟨a, List.mem_cons_self, rfl⟩
    | a :: b :: rest => exact absurd hlt (by simp)
  · obtain ⟨a, b, ha, hb, hselect⟩ := self.select_eq active hge
    refine ⟨_, ?_, congrArg Prod.fst hselect⟩
    split
    · exact List.mem_of_getElem? ha
    · exact List.mem_of_getElem? hb

theorem LeastConnections.select_finds (active : α → UInt64) {l : List α} (h : l ≠ []) :
    ∃ a ∈ l, LeastConnections.select active l = .ok (some a) := by
  obtain ⟨a, ha⟩ := exists_first (fun a => (active a).toNat) h
  refine ⟨a, ha.mem, (minBy_eq_ok ?_).mpr ⟨ha, fun before b after best _ _ => ⟨_, rfl⟩⟩⟩
  intro b c r hr
  cases hr
  exact decide_eq_true_iff.trans UInt64.lt_iff_toNat_lt

theorem mem_of_mem_line {ws : List ℕ} {l : List α} {p : α × ℕ} (h : p ∈ line ws l) : p.1 ∈ l := by
  cases l with
  | nil => exact absurd h List.not_mem_nil
  | cons ep rest =>
    rcases List.mem_append.mp h with hzip | hend
    · exact (List.of_mem_zip hzip).1
    · rw [List.mem_singleton.mp hend]
      exact List.mem_cons_self

theorem Weighted.select_finds {lb : Weighted} {l : List α} (h : l ≠ []) (hlen : l.length ≤ lb.weights.length)
    (htotal : lb.totalWeight = (lb.weights.map UInt32.toNat).sum) (hpos : 0 < lb.totalWeight)
    (hfits : lb.totalWeight < 2 ^ 32) : ∃ a ∈ l, (lb.select l).1 = .ok (some a) := by
  cases l with
  | nil => exact absurd rfl h
  | cons ep rest =>
    have hline : total (line (lb.weights.map UInt32.toNat) (ep :: rest)) = lb.totalWeight := by
      rw [htotal]
      refine total_line ?_
      rw [List.length_map]
      exact hlen
    have htarget : lb.counter.toUInt32.toNat % lb.totalWeight <
        total (line (lb.weights.map UInt32.toNat) (ep :: rest)) := by
      rw [hline]
      exact Nat.mod_lt _ hpos
    obtain ⟨e, he, -, howner⟩ := exists_owner htarget
    refine ⟨e.1, mem_of_mem_line he, ?_⟩
    rw [Weighted.select_eq hlen htotal hpos hfits, howner]

/-- Without a total nothing is found. -/
theorem Weighted.select_of_zero {lb : Weighted} (l : List α) (hzero : lb.totalWeight = 0) :
    (lb.select l).1 = .ok none := by
  unfold Weighted.select
  rw [if_pos (Or.inr hzero)]
  rfl

/-- So one that finds an endpoint has weight to give. -/
theorem Weighted.pos_of_select {lb : Weighted} {l : List α} {ep : α} (h : (lb.select l).1 = .ok (some ep)) :
    0 < lb.totalWeight := by
  by_contra hnone
  rw [Weighted.select_of_zero l (by omega)] at h
  cases h

theorem WeightedLeastConn.select_finds {configs : List EndpointConfig} {active : α → UInt64} {l : List α}
    (h : l ≠ []) (hfit : (WeightedLeastConn.new configs).ScoresFit active l) :
    ∃ a ∈ l, (WeightedLeastConn.new configs).select active l = .ok (some a) := by
  obtain ⟨⟨a, i⟩, ha⟩ := exists_first ((WeightedLeastConn.new configs).rate active)
    (mt List.zipIdx_eq_nil_iff.mp h)
  exact ⟨a, List.mem_of_getElem? (List.mk_mem_zipIdx_iff_getElem?.mp ha.mem),
    WeightedLeastConn.select_eq_ok.mpr ⟨⟨i, ha⟩, hfit⟩⟩

/-! ## A cluster's balancer -/

section Built

variable {config : ClusterConfig}

/-- What building a balancer yields, for the two strategies that read the weights. -/
theorem new_spec {lb : LoadBalancer} (h : LoadBalancer.new config = .ok lb) :
    match lb with
    | .weighted self => config.loadBalancer = .weighted ∧ Weighted.new config.endpoints = .ok self
    | .weightedLeastConn self => config.loadBalancer = .weightedLeastConn ∧ self = .new config.endpoints
    | _ => True := by
  unfold LoadBalancer.new at h
  cases hlb : config.loadBalancer with
  | weighted =>
    rw [hlb] at h
    obtain ⟨self, hself, hpure⟩ := Fallible.bind_eq_ok.mp h
    cases hpure
    exact ⟨rfl, hself⟩
  | weightedLeastConn =>
    rw [hlb] at h
    cases h
    exact ⟨rfl, rfl⟩
  | roundRobin => rw [hlb] at h; cases h; trivial
  | leastConn => rw [hlb] at h; cases h; trivial
  | random => rw [hlb] at h; cases h; trivial
  | p2c => rw [hlb] at h; cases h; trivial
  | consistentHash => rw [hlb] at h; cases h; trivial

/-- A balancer is built with its counter at the start, and only a total that does not fit keeps it from being
    built. -/
theorem exists_new (hfits : config.loadBalancer = .weighted → (weightsOf config).sum < 2 ^ 32) :
    ∃ lb : LoadBalancer, LoadBalancer.new config = .ok lb ∧ lb.reset = lb := by
  unfold LoadBalancer.new
  cases hlb : config.loadBalancer with
  | weighted =>
    have hself := Weighted.new_eq_ok.mpr ⟨hfits hlb, rfl⟩
    exact ⟨.weighted _, Fallible.bind_eq_ok.mpr ⟨_, hself, rfl⟩, rfl⟩
  | roundRobin => exact ⟨_, rfl, rfl⟩
  | leastConn => exact ⟨_, rfl, rfl⟩
  | random => exact ⟨_, rfl, rfl⟩
  | p2c => exact ⟨_, rfl, rfl⟩
  | consistentHash => exact ⟨_, rfl, rfl⟩
  | weightedLeastConn => exact ⟨_, rfl, rfl⟩

/-- The scores fit where the weights leave room for the largest count. -/
theorem scoresFit_of_steady {cap : UInt64} {active : α → UInt64} {l : List α}
    (hlen : l.length ≤ config.endpoints.length) (hcap : ∀ a ∈ l, active a ≤ cap)
    (hroom : config.endpoints.length ≤ 1 ∨ ∀ e ∈ config.endpoints, cap.toNat * max e.weight.toNat 1 < 2 ^ 64) :
    (WeightedLeastConn.new config.endpoints).ScoresFit active l := by
  intro before b after best hl hfirst
  rcases hroom with hone | hroom
  · -- nothing stands before the only endpoint
    exfalso
    have hsize := congrArg List.length hl
    have hbefore : 0 < before.length := List.length_pos_of_mem hfirst.mem
    rw [List.length_zipIdx, List.length_append, List.length_cons] at hsize
    omega
  · have hweight : ∀ i, cap.toNat * (WeightedLeastConn.new config.endpoints).weight i < 2 ^ 64 := by
      intro i
      rw [WeightedLeastConn.weight_new]
      cases he : config.endpoints[i]? with
      | none =>
        have hlt := cap.toNat_lt
        show cap.toNat * 1 < 2 ^ 64
        omega
      | some e => exact hroom e (List.mem_of_getElem? he)
    have hcount : ∀ p ∈ l.zipIdx, ∀ i,
        (active p.1).toNat * (WeightedLeastConn.new config.endpoints).weight i < 2 ^ 64 := by
      intro p hp i
      have hmem : p.1 ∈ l := List.mem_of_getElem? (List.mk_mem_zipIdx_iff_getElem?.mp hp)
      exact lt_of_le_of_lt (Nat.mul_le_mul_right _ (UInt64.le_iff_toNat_le.mp (hcap _ hmem))) (hweight i)
    have hbest : best ∈ l.zipIdx := hl ▸ List.mem_append_left _ hfirst.mem
    have hb : b ∈ l.zipIdx := hl ▸ List.mem_append_right _ List.mem_cons_self
    exact ⟨hcount best hbest b.2, hcount b hb best.2⟩

/-- A call finds an endpoint, whatever the calls before it have made of the counter. -/
theorem select_finds {cap : UInt64} (hsteady : Steady cap config) {lb : LoadBalancer}
    (hnew : LoadBalancer.new config = .ok lb.reset) {active : α → UInt64} {l : List α} (h : l ≠ [])
    (hlen : l.length ≤ config.endpoints.length) (hcap : ∀ a ∈ l, active a ≤ cap) :
    ∃ a ∈ l, (lb.select active l).1 = .ok (some a) := by
  unfold Steady at hsteady
  cases lb with
  | roundRobin self =>
    obtain ⟨a, ha, hget⟩ := exists_getElem?_mod h self.counter.toNat
    refine ⟨a, ha, congrArg Except.ok ?_⟩
    show (self.select l).1 = some a
    unfold RoundRobin.select
    rw [if_neg (isEmpty_ne h), hget]
  | leastConn => exact LeastConnections.select_finds active h
  | weighted self =>
    obtain ⟨hlb, hself⟩ := new_spec hnew
    rw [hlb] at hsteady
    obtain ⟨hpos, hfits⟩ := hsteady
    obtain ⟨-, hreset⟩ := Weighted.new_eq_ok.mp hself
    have hweights : self.weights = config.endpoints.map fun e => e.weight := congrArg Weighted.weights hreset
    have htotal : self.totalWeight = (weightsOf config).sum := congrArg Weighted.totalWeight hreset
    have hsum : self.totalWeight = (self.weights.map UInt32.toNat).sum := by
      rw [htotal, hweights, List.map_map]
      rfl
    refine Weighted.select_finds h ?_ hsum ?_ (htotal ▸ hfits)
    · rw [hweights, List.length_map]
      exact hlen
    · rw [htotal]
      refine hpos.resolve_left fun hnone => h ?_
      rw [hnone] at hlen
      exact List.eq_nil_of_length_eq_zero (Nat.le_zero.mp hlen)
  | random self =>
    obtain ⟨a, ha, hget⟩ := exists_getElem?_mod h (xorshift self.counter).toNat
    refine ⟨a, ha, congrArg Except.ok ?_⟩
    show (self.select l).1 = some a
    unfold Random.select
    rw [if_neg (isEmpty_ne h)]
    exact hget
  | p2c self =>
    obtain ⟨a, ha, hselect⟩ := self.select_finds active h
    exact ⟨a, ha, congrArg Except.ok hselect⟩
  | consistentHash self =>
    obtain ⟨a, ha, hget⟩ := exists_getElem?_mod h self.counter.toNat
    refine ⟨a, ha, congrArg Except.ok ?_⟩
    show (self.select l).1 = some a
    rw [ConsistentHash.select_eq, if_neg (isEmpty_ne h), hget]
  | weightedLeastConn self =>
    obtain ⟨hlb, rfl⟩ := new_spec hnew
    rw [hlb] at hsteady
    exact WeightedLeastConn.select_finds h (scoresFit_of_steady hlen hcap hsteady)

theorem selectEndpoint_of_ne {self : Cluster} {cells : Endpoint → Endpoint.Cells}
    (h : self.healthy cells ≠ []) (lb : LoadBalancer) : self.selectEndpoint cells lb =
      lb.select (fun ep => (cells ep).activeConnections) (self.healthy cells) :=
  if_neg (isEmpty_ne h)

/-- Endpoints all of which are healthy and have the same number of connections. -/
def allUp (count : UInt64) (ep : Endpoint) : Endpoint.Cells :=
  { cellsOf (fun _ => true) ep with activeConnections := count }

theorem healthyOf_allUp (config : ClusterConfig) (count : UInt64) :
    healthyOf config (allUp count) = buildEndpoints config.name config.endpoints :=
  List.filter_eq_self.mpr fun _ _ => rfl

theorem buildEndpoints_ne_nil (cluster : String) {configs : List EndpointConfig} (h : configs ≠ []) :
    buildEndpoints cluster configs ≠ [] := by
  intro hnone
  have hlen := length_buildEndpoints cluster configs
  rw [hnone] at hlen
  exact h (List.eq_nil_of_length_eq_zero hlen.symm)

/-- A balancer that finds an endpoint in whatever cells finds one when all are up with `cap` connections. -/
theorem finds_allUp {cap : UInt64} {lb : LoadBalancer}
    (hfinds : ∀ cells : Endpoint → Endpoint.Cells,
      (∀ ep ∈ (Cluster.new config).endpoints, (cells ep).activeConnections ≤ cap) →
      healthyOf config cells ≠ [] → ∃ ep ∈ healthyOf config cells,
        ((Cluster.new config).selectEndpoint cells lb).1 = .ok (some ep))
    (hsome : config.endpoints ≠ []) :
    ∃ ep, (lb.select (fun _ => cap) (buildEndpoints config.name config.endpoints)).1 = .ok (some ep) := by
  have hlist : (Cluster.new config).healthy (allUp cap) = buildEndpoints config.name config.endpoints :=
    healthyOf_allUp config cap
  have hne := buildEndpoints_ne_nil config.name hsome
  have hup : healthyOf config (allUp cap) ≠ [] := by
    rw [healthyOf_allUp]
    exact hne
  obtain ⟨ep, -, hselect⟩ := hfinds (allUp cap) (fun _ _ => UInt64.le_refl cap) hup
  rw [selectEndpoint_of_ne (by rw [hlist]; exact hne), hlist] at hselect
  exact ⟨ep, hselect⟩

/-- If everything that is compared fits while all endpoints have `cap` connections, the weights leave room. -/
theorem room_of_scoresFit {cap : UInt64} (hmany : ¬ config.endpoints.length ≤ 1)
    (hfit : (WeightedLeastConn.new config.endpoints).ScoresFit (fun _ => cap)
      (buildEndpoints config.name config.endpoints)) :
    ∀ e ∈ config.endpoints, cap.toNat * max e.weight.toNat 1 < 2 ^ 64 := by
  intro e he
  obtain ⟨i, hi⟩ := List.mem_iff_getElem?.mp he
  have hweight : (WeightedLeastConn.new config.endpoints).weight i = max e.weight.toNat 1 := by
    rw [WeightedLeastConn.weight_new, hi]
    rfl
  have hilt : i < (buildEndpoints config.name config.endpoints).zipIdx.length := by
    rw [List.length_zipIdx, length_buildEndpoints]
    exact (List.getElem?_eq_some_iff.mp hi).1
  have hindex : ∀ j (hj : j < (buildEndpoints config.name config.endpoints).zipIdx.length),
      ((buildEndpoints config.name config.endpoints).zipIdx[j]).2 = j := by
    intro j hj
    rw [List.getElem_zipIdx]
    exact Nat.zero_add j
  have hsplit : ∀ j (hj : j < (buildEndpoints config.name config.endpoints).zipIdx.length),
      (buildEndpoints config.name config.endpoints).zipIdx =
        (buildEndpoints config.name config.endpoints).zipIdx.take j ++
          (buildEndpoints config.name config.endpoints).zipIdx[j] ::
            (buildEndpoints config.name config.endpoints).zipIdx.drop (j + 1) := by
    intro j hj
    rw [← List.drop_eq_getElem_cons hj, List.take_append_drop]
  cases i with
  | zero =>
    -- the weight of the first position is a factor when the second endpoint comes up
    have hone : 1 < (buildEndpoints config.name config.endpoints).zipIdx.length := by
      rw [List.length_zipIdx, length_buildEndpoints]
      omega
    have hfirst : First ((WeightedLeastConn.new config.endpoints).rate fun _ => cap)
        ((buildEndpoints config.name config.endpoints).zipIdx.take 1)
        (buildEndpoints config.name config.endpoints).zipIdx[0] := by
      rw [List.take_succ_eq_append_getElem hilt]
      exact ⟨[], [], rfl, trivial, nofun, nofun⟩
    have hfits := (hfit _ _ _ _ (hsplit 1 hone) hfirst).2
    rw [hindex 0 hilt, hweight] at hfits
    exact hfits
  | succ i =>
    -- the weight of any other position, when its own endpoint does
    have hbefore : (buildEndpoints config.name config.endpoints).zipIdx.take (i + 1) ≠ [] := by
      intro hnone
      have hlen := congrArg List.length hnone
      rw [List.length_take, List.length_nil] at hlen
      omega
    obtain ⟨best, hbest⟩ := exists_first ((WeightedLeastConn.new config.endpoints).rate fun _ => cap) hbefore
    have hfits := (hfit _ _ _ _ (hsplit (i + 1) hilt) hbest).1
    rw [hindex (i + 1) hilt, hweight] at hfits
    exact hfits

end Built

/-- **A balancer always finds an endpoint** exactly when the weights that its strategy uses are within
    bounds. -/
theorem always_finds_iff (cap : UInt64) (config : ClusterConfig) :
    AlwaysFinds cap config ↔ Steady cap config := by
  constructor
  · rintro ⟨lb, hnew, hfinds⟩
    have hcall (hsome : config.endpoints ≠ []) := finds_allUp (hfinds []) hsome
    unfold Steady
    split
    · rename_i hlb
      unfold LoadBalancer.new at hnew
      rw [hlb] at hnew
      obtain ⟨self, hself, hpure⟩ := Fallible.bind_eq_ok.mp hnew
      cases hpure
      obtain ⟨hfits, hstatic⟩ := Weighted.new_eq_ok.mp hself
      refine ⟨?_, hfits⟩
      by_cases hnil : config.endpoints = []
      · exact Or.inl hnil
      · obtain ⟨ep, hselect⟩ := hcall hnil
        have hpos := Weighted.pos_of_select hselect
        rw [hstatic] at hpos
        exact Or.inr hpos
    · rename_i hlb
      unfold LoadBalancer.new at hnew
      rw [hlb] at hnew
      cases hnew
      by_cases hone : config.endpoints.length ≤ 1
      · exact Or.inl hone
      · obtain ⟨ep, hselect⟩ := hcall fun hnil => hone (by rw [hnil]; exact Nat.zero_le 1)
        exact Or.inr (room_of_scoresFit hone (WeightedLeastConn.select_eq_ok.mp hselect).2)
    · trivial
  · intro hsteady
    have hfits : config.loadBalancer = .weighted → (weightsOf config).sum < 2 ^ 32 := by
      intro hlb
      unfold Steady at hsteady
      rw [hlb] at hsteady
      exact hsteady.2
    obtain ⟨lb, hnew, hreset⟩ := exists_new hfits
    refine ⟨lb, hnew, fun earlier cells hcap hsome => ?_⟩
    have hkept : ((Cluster.new config).afterwards lb earlier).reset = lb := (reset_afterwards _ _ _).trans hreset
    have hlen : (healthyOf config cells).length ≤ config.endpoints.length :=
      (List.length_filter_le _ _).trans (Nat.le_of_eq (length_buildEndpoints _ _))
    rw [selectEndpoint_of_ne hsome]
    exact select_finds hsteady (hkept.symm ▸ hnew) hsome hlen
      fun ep hep => hcap ep (mem_healthy.mp hep).1

/-- A configuration in which the only cluster gives its endpoint no weight. -/
def unweighted : Config where
  listeners := [{ name := "main", address := "0.0.0.0:2775" }]
  clusters := [{ name := "upstream", loadBalancer := .weighted,
                 endpoints := [{ address := "smsc:2775", systemId := "id", password := "pw", weight := 0 }] }]

/-- It is accepted, and its cluster finds no endpoint, though its only one is healthy and idle. -/
theorem unweighted_finds_none :
    unweighted.validate = .ok () ∧ ∃ config ∈ unweighted.clusters, ¬ AlwaysFinds 0 config := by
  refine ⟨rfl, _, List.mem_singleton.mpr rfl, ?_⟩
  rintro ⟨lb, hnew, hfinds⟩
  cases hnew
  obtain ⟨ep, -, hselect⟩ := hfinds [] (allUp 0) (fun _ _ => UInt64.le_refl 0) (List.cons_ne_nil _ _)
  cases hselect

end Smppd.Cluster
