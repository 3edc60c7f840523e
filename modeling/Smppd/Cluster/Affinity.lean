/-
  AFFINITY: whether messages of one session keep their endpoint.

  The balancer of a `consistent_hash` cluster promises it, and it has a ring to do so with.  But
  `Cluster::get_connection` hands it no key, and `ConsistentHash::select` takes the next position whether there
  is a ring or not (`ConsistentHash.select_eq`).  So sessions keep their endpoint only where there is nothing to
  choose (`affine_iff_le_one`).
-/
import Smppd.Cluster.Balancers

set_option linter.dupNamespace false

namespace Smppd.Cluster

open Overflow

variable {α : Type}

/-! ## What is promised -/

/-- A message for a cluster: the key of its session, and the endpoints as they are when it is sent. -/
structure Sending where
  key : String
  cells : Endpoint → Endpoint.Cells

/-- While just the endpoints in `up` are healthy, messages with one key get their connection from one
    endpoint, whatever was sent before and is sent in between. -/
def Affine (config : ClusterConfig) (up : Endpoint → Bool) : Prop :=
  ∀ (lb : LoadBalancer) (earlier : List (Endpoint → Endpoint.Cells)) (traffic : List Sending),
    LoadBalancer.new config = .ok lb →
    (∀ s ∈ traffic, ∀ ep ∈ (Cluster.new config).endpoints, (s.cells ep).isHealthy = up ep) →
    ∀ (i j : Nat) (s t : Sending), traffic[i]? = some s → traffic[j]? = some t → s.key = t.key →
      ((Cluster.new config).choices ((Cluster.new config).afterwards lb earlier)
        (traffic.map Sending.cells))[i]? =
      ((Cluster.new config).choices ((Cluster.new config).afterwards lb earlier)
        (traffic.map Sending.cells))[j]?

/-! ## What is done -/

/-- With a ring or without, the next position is taken. -/
theorem ConsistentHash.select_eq (self : ConsistentHash) (endpoints : List α) :
    self.select endpoints = if endpoints.isEmpty then (none, self) else
      (endpoints[self.counter.toNat % endpoints.length]?, { self with counter := self.counter + 1 }) := by
  unfold ConsistentHash.select
  rw [ite_self]

/-- A call of a cluster with this balancer. -/
theorem selectEndpoint_consistentHash (self : Cluster) (cells : Endpoint → Endpoint.Cells)
    (ring : ConsistentHash) : self.selectEndpoint cells (.consistentHash ring) =
      if (self.healthy cells).isEmpty then (.ok none, .consistentHash ring)
      else (.ok (self.healthy cells)[ring.counter.toNat % (self.healthy cells).length]?,
        .consistentHash { ring with counter := ring.counter + 1 }) := by
  unfold Cluster.selectEndpoint
  by_cases h : (self.healthy cells).isEmpty = true
  · rw [if_pos h, if_pos h]
    rfl
  · rw [if_neg h, if_neg h]
    show ((.ok (ring.select _).1, .consistentHash (ring.select _).2) :
      Except Overflow (Option Endpoint) × LoadBalancer) = _
    rw [ConsistentHash.select_eq, if_neg h]

/-- A call with some endpoint healthy. -/
theorem selectEndpoint_of_cons {self : Cluster} {cells : Endpoint → Endpoint.Cells} {ep : Endpoint}
    {rest : List Endpoint} (h : self.healthy cells = ep :: rest) (ring : ConsistentHash) :
    self.selectEndpoint cells (.consistentHash ring) =
      (.ok (ep :: rest)[ring.counter.toNat % (rest.length + 1)]?,
        .consistentHash { ring with counter := ring.counter + 1 }) := by
  rw [selectEndpoint_consistentHash, h, List.isEmpty_cons, if_neg Bool.false_ne_true, List.length_cons]

/-- The balancer stays one of its kind. -/
theorem afterwards_consistentHash (self : Cluster) (calls : List (Endpoint → Endpoint.Cells))
    (ring : ConsistentHash) :
    ∃ ring', self.afterwards (.consistentHash ring) calls = .consistentHash ring' := by
  induction calls generalizing ring with
  | nil => exact ⟨ring, rfl⟩
  | cons cells calls ih =>
    rw [Cluster.afterwards, selectEndpoint_consistentHash]
    split
    · exact ih ring
    · exact ih _

/-- Where there is at most one endpoint to choose, it is chosen. -/
theorem choices_of_le_one {self : Cluster} {healthy : List Endpoint} (hone : healthy.length ≤ 1)
    {calls : List (Endpoint → Endpoint.Cells)} (hcalls : ∀ cells ∈ calls, self.healthy cells = healthy)
    (ring : ConsistentHash) :
    self.choices (.consistentHash ring) calls = calls.map fun _ => .ok healthy.head? := by
  induction calls generalizing ring with
  | nil => rfl
  | cons cells calls ih =>
    obtain ⟨hfirst, hrest⟩ := List.forall_mem_cons.mp hcalls
    rw [Cluster.choices_cons, List.map_cons]
    match healthy with
    | [] =>
      rw [selectEndpoint_consistentHash, hfirst, if_pos List.isEmpty_nil, ih hrest]
      rfl
    | [ep] =>
      rw [selectEndpoint_of_cons hfirst, ih hrest, List.length_nil, Nat.zero_add, Nat.mod_one]
      rfl

/-- Where there are two, the first two calls take one each. -/
theorem choices_first_two {self : Cluster} {cells : Endpoint → Endpoint.Cells} {a b : Endpoint}
    {rest : List Endpoint} (h : self.healthy cells = a :: b :: rest) {ring : ConsistentHash}
    (hstart : ring.counter = 0) :
    self.choices (.consistentHash ring) [cells, cells] = [.ok (some a), .ok (some b)] := by
  have hfirst : (0 : UInt64).toNat % (rest.length + 1 + 1) = 0 := Nat.zero_mod _
  have hsecond : (0 + 1 : UInt64).toNat % (rest.length + 1 + 1) = 1 :=
    Nat.mod_eq_of_lt (Nat.succ_lt_succ (Nat.succ_pos _))
  rw [Cluster.choices_cons, selectEndpoint_of_cons h, Cluster.choices_cons, selectEndpoint_of_cons h,
    Cluster.choices_nil, hstart, List.length_cons, hfirst, hsecond]
  rfl

/-- The healthy endpoints of a sending, when it is known which are healthy. -/
theorem healthy_eq_filter {self : Cluster} {cells : Endpoint → Endpoint.Cells} {up : Endpoint → Bool}
    (h : ∀ ep ∈ self.endpoints, (cells ep).isHealthy = up ep) : self.healthy cells = self.endpoints.filter up :=
  List.filter_congr h

/-! ## When it is kept -/

/-- **Session affinity.**  Messages with one key keep their endpoint exactly when no more than one endpoint is
    healthy. -/
theorem affine_iff_le_one (config : ClusterConfig) (hlb : config.loadBalancer = .consistentHash)
    (up : Endpoint → Bool) :
    Affine config up ↔ ((Cluster.new config).endpoints.filter up).length ≤ 1 := by
  have hnew : LoadBalancer.new config = .ok (.consistentHash (.new config.endpoints 100)) := by
    unfold LoadBalancer.new
    rw [hlb]
    rfl
  constructor
  · intro haffine
    by_contra hmany
    -- two messages of one session, one after the other, from the start
    obtain ⟨a, b, rest, hlist⟩ : ∃ a b rest, (Cluster.new config).endpoints.filter up = a :: b :: rest := by
      match h : (Cluster.new config).endpoints.filter up with
      | [] => exact absurd (h ▸ Nat.zero_le 1) hmany
      | [a] => exact absurd (h ▸ Nat.le_refl 1) hmany
      | a :: b :: rest => exact ⟨a, b, rest, rfl⟩
    have hhealthy : (Cluster.new config).healthy (cellsOf up) = a :: b :: rest :=
      (healthy_eq_filter fun ep _ => isHealthy_cellsOf up ep).trans hlist
    have hsame := haffine _ [] (List.replicate 2 ⟨"", cellsOf up⟩) hnew
      (fun s hs ep _ => List.eq_of_mem_replicate hs ▸ isHealthy_cellsOf up ep) 0 1 _ _ rfl rfl rfl
    have hchoices : (Cluster.new config).choices (.consistentHash (.new config.endpoints 100))
        [cellsOf up, cellsOf up] = [.ok (some a), .ok (some b)] := choices_first_two hhealthy rfl
    have hpair : [Except.ok (some a), Except.ok (some b)][0]? =
        ([Except.ok (some a), Except.ok (some b)] : List (Except Overflow (Option Endpoint)))[1]? :=
      hchoices ▸ hsame
    have hab : a = b := Option.some.inj (Except.ok.inj (Option.some.inj hpair))
    have hnodup := (nodup_buildEndpoints config.name config.endpoints).filter up
    rw [show (buildEndpoints config.name config.endpoints).filter up = a :: b :: rest from hlist, hab] at hnodup
    exact (List.nodup_cons.mp hnodup).1 List.mem_cons_self
  · intro hone lb earlier traffic hlb' hup i j s t hi hj _
    obtain rfl : LoadBalancer.consistentHash (.new config.endpoints 100) = lb :=
      Except.ok.inj (hnew.symm.trans hlb')
    obtain ⟨ring, hring⟩ := afterwards_consistentHash (Cluster.new config) earlier (.new config.endpoints 100)
    rw [hring, choices_of_le_one hone fun cells hcells => ?_, List.getElem?_map, List.getElem?_map,
      List.getElem?_map, List.getElem?_map, hi, hj]
    · rfl
    · obtain ⟨s, hs, rfl⟩ := List.mem_map.mp hcells
      exact healthy_eq_filter (hup s hs)

/-- A cluster of two endpoints. -/
def twoEndpoints : ClusterConfig where
  name := "upstream"
  endpoints := [⟨"smsc1:2775", "id", "pw", "", 1⟩, ⟨"smsc2:2775", "id", "pw", "", 1⟩]
  loadBalancer := .consistentHash

/-- With both endpoints healthy, two messages of one session get different ones. -/
theorem affinity_fails_on_two : ¬ Affine twoEndpoints fun _ => true := by
  intro haffine
  have hsame := haffine _ [] (List.replicate 2 ⟨"+258841234567", cellsOf fun _ => true⟩) rfl
    (fun s hs ep _ => List.eq_of_mem_replicate hs ▸ rfl) 0 1 _ _ rfl rfl rfl
  have hchoices : (Cluster.new twoEndpoints).choices (.consistentHash (.new twoEndpoints.endpoints 100))
      [cellsOf fun _ => true, cellsOf fun _ => true] = [.ok (some _), .ok (some _)] :=
    choices_first_two rfl rfl
  have hpair : ([.ok (some _), .ok (some _)] : List (Except Overflow (Option Endpoint)))[0]? = _ :=
    hchoices ▸ hsame
  cases hpair

/-- With one endpoint of the two they keep it. -/
theorem affine_iff_le_one_single : Affine twoEndpoints fun ep => decide (ep.index = 0) :=
  (affine_iff_le_one twoEndpoints rfl _).mpr (by decide)

end Smppd.Cluster
