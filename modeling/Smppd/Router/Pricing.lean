/-
  ROUTING BY COST (`src/router/pricing.rs`): what a message costs over a cluster, and which cluster it takes.

  A price is looked up for the cluster, the country and the network, then without the network, then as the
  default of the cluster, and last as the default of all.  `entryOf` and `defaultOf` say what has been set under a
  key, as a fold over the calls that set prices: the last of them that says something about the key
  (`lookup_after`); in which order the maps of `load_from_map` are walked does not matter.

  Candidates are scored by the strategy and sorted by descending score; the sort is stable.  `select_route` and
  `rank_routes` are written out separately, and both come down to `scored`:

  * for `LeastCost` the score `1 / (cost + 1)` falls as the cost rises, if costs are not negative, so that the
    sort by score is the sort by cost and its first is the first of the cheapest (`least_cost_routing`);
  * for any strategy the ranking rearranges the candidates, and the selected one is its head.

  Scores are exact; a margin is a difference in `i64`, which wraps.
-/
import Mathlib.Algebra.Order.Field.Rat
import Mathlib.Algebra.Order.Ring.Rat
import Mathlib.Algebra.Order.Field.Basic
import Mathlib.Tactic.Linarith
import Mathlib.Tactic.Positivity
import Smppd.Lib.Rank
import Smppd.Lib.Table

set_option linter.unusedVariables false

namespace Smppd.Router

open Table

/-! ## Prices -/

/-- Route pricing for a specific destination. -/
structure RoutePricing where
  /-- Cost per message (smallest currency unit, e.g., cents). -/
  cost : Int64 := 10
  /-- Currency code (ISO 4217). -/
  currency : String := "MZN"
  /-- Quality score (0.0 - 1.0, higher is better). -/
  qualityScore : ℚ := 9 / 10
  /-- Average latency in milliseconds. -/
  latencyMs : UInt64 := 500
  /-- Delivery rate (0.0 - 1.0). -/
  deliveryRate : ℚ := 95 / 100
  deriving DecidableEq

/-- Pricing table key. -/
@[ext] structure PricingKey where
  /-- Cluster/route name. -/
  cluster : String
  /-- Country code (ISO 3166-1 alpha-2). -/
  country : String
  /-- Network/MNO (optional). -/
  network : Option String
  deriving DecidableEq

/-- `without_network`: key without network (fallback lookup). -/
def PricingKey.withoutNetwork (self : PricingKey) : PricingKey := { self with network := none }

/-- Cluster pricing configuration. -/
structure ClusterPricing where
  /-- Default pricing for this cluster. -/
  default : RoutePricing := {}
  /-- Country-specific pricing. -/
  countries : Tbl String RoutePricing := ∅
  /-- Network-specific pricing (country -> network -> pricing). -/
  networks : Tbl String (Tbl String RoutePricing) := ∅

/-- Route pricing store. -/
structure PricingStore where
  /-- Pricing table: (cluster, country, network) -> pricing. -/
  pricing : Tbl PricingKey RoutePricing
  /-- Default pricing per cluster. -/
  defaults : Tbl String RoutePricing

/-- The orders in which `load_from_map` meets the entries of its maps. -/
structure LoadOrder where
  clusters : IterOrder (Sigma fun _ : String => ClusterPricing)
  countries : String → IterOrder (Sigma fun _ : String => RoutePricing)
  networks : String → IterOrder (Sigma fun _ : String => Tbl String RoutePricing)
  /-- The networks of one country. -/
  inCountry : String → String → IterOrder (Sigma fun _ : String => RoutePricing)

namespace PricingStore

/-- `PricingStore::new`. -/
def new : PricingStore := ⟨∅, ∅⟩

/-- `set_pricing`. -/
def setPricing (key : PricingKey) (pricing : RoutePricing) (self : PricingStore) : PricingStore :=
  { self with pricing := self.pricing.insert key pricing }

/-- `set_default`. -/
def setDefault (cluster : String) (pricing : RoutePricing) (self : PricingStore) : PricingStore :=
  { self with defaults := self.defaults.insert cluster pricing }

/-- `get_pricing`. -/
def getPricing (key : PricingKey) (self : PricingStore) : Option RoutePricing :=
  match self.pricing.lookup key with
  | some p => some p
  | none =>
    match if key.network.isSome then self.pricing.lookup key.withoutNetwork else none with
    | some p => some p
    | none => self.defaults.lookup key.cluster

/-- The loops of `load_from_map` over the countries of a cluster. -/
def loadCountries (order : LoadOrder) (cluster : String) (countries : Tbl String RoutePricing) (self : PricingStore) :
    PricingStore :=
  ((order.countries cluster).arrange countries.entries).foldl
    (fun self entry => self.setPricing ⟨cluster, entry.1, none⟩ entry.2) self

/-- Over the networks of a country. -/
def loadInCountry (order : LoadOrder) (cluster country : String) (networks : Tbl String RoutePricing)
    (self : PricingStore) : PricingStore :=
  ((order.inCountry cluster country).arrange networks.entries).foldl
    (fun self entry => self.setPricing ⟨cluster, country, some entry.1⟩ entry.2) self

/-- Over the countries with networks of a cluster. -/
def loadNetworks (order : LoadOrder) (cluster : String) (networks : Tbl String (Tbl String RoutePricing))
    (self : PricingStore) : PricingStore :=
  ((order.networks cluster).arrange networks.entries).foldl
    (fun self entry => self.loadInCountry order cluster entry.1 entry.2) self

/-- The body of the loop over the clusters. -/
def loadCluster (order : LoadOrder) (cluster : String) (clusterPricing : ClusterPricing) (self : PricingStore) :
    PricingStore :=
  let self := self.setDefault cluster clusterPricing.default
  let self := self.loadCountries order cluster clusterPricing.countries
  self.loadNetworks order cluster clusterPricing.networks

/-- `load_from_map`. -/
def loadFromMap (order : LoadOrder) (pricingMap : Tbl String ClusterPricing) (self : PricingStore) : PricingStore :=
  (order.clusters.arrange pricingMap.entries).foldl (fun self entry => self.loadCluster order entry.1 entry.2) self

end PricingStore

/-! ## Scores -/

/-- Routing strategy for cost-aware selection. -/
inductive CostRoutingStrategy where
  /-- Always choose the cheapest route. -/
  | leastCost
  /-- Choose best quality within cost threshold. -/
  | qualityFirst
  /-- Balance cost and quality. -/
  | balanced
  /-- Maximize margin (revenue - cost). -/
  | maxMargin
  deriving DecidableEq

/-- Route candidate with pricing info. -/
structure RouteCandidate where
  cluster : String
  pricing : RoutePricing
  /-- Effective cost (after any adjustments). -/
  effectiveCost : Int64
  /-- Combined score for ranking. -/
  score : ℚ

/-- `calculate_score`. -/
def RouteCandidate.calculateScore (strategy : CostRoutingStrategy) (revenue : Option Int64) (self : RouteCandidate) :
    RouteCandidate :=
  { self with
    score := match strategy with
      | .leastCost => 1 / ((self.effectiveCost.toInt : ℚ) + 1)
      | .qualityFirst => self.pricing.qualityScore * 1000 - (self.effectiveCost.toInt : ℚ) / 100
      | .balanced =>
        let qualityWeight := 4 / 10
        let costWeight := 3 / 10
        let deliveryWeight := 3 / 10
        let costScore := 1 / ((self.effectiveCost.toInt : ℚ) / 10 + 1)
        qualityWeight * self.pricing.qualityScore + costWeight * costScore +
          deliveryWeight * self.pricing.deliveryRate
      | .maxMargin =>
        match revenue with
        | some rev => ((rev - self.effectiveCost).toInt : ℚ)
        -- fall back to least cost if no revenue info
        | none => 1 / ((self.effectiveCost.toInt : ℚ) + 1) }

/-- The sort by score, descending and stable. -/
def sortByScore (candidates : List RouteCandidate) : List RouteCandidate :=
  candidates.insertionSort fun a b => b.score ≤ a.score

/-- Cost-based route selector. -/
structure CostRouter where
  pricingStore : PricingStore
  defaultStrategy : CostRoutingStrategy := .balanced

namespace CostRouter

/-- `select_route_with_strategy`. -/
def selectRouteWithStrategy (candidates : List String) (country : String) (network : Option String)
    (revenue : Option Int64) (strategy : CostRoutingStrategy) (self : CostRouter) : Option String :=
  if candidates.isEmpty then none
  else
    let routeCandidates := candidates.filterMap fun cluster =>
      let pricing := (self.pricingStore.getPricing ⟨cluster, country, network⟩).getD {}
      some { cluster, effectiveCost := pricing.cost, pricing, score := 0 : RouteCandidate }
    let routeCandidates := routeCandidates.map (RouteCandidate.calculateScore strategy revenue)
    (sortByScore routeCandidates).head?.map fun c => c.cluster

/-- `select_route`. -/
def selectRoute (candidates : List String) (country : String) (network : Option String) (revenue : Option Int64)
    (self : CostRouter) : Option String :=
  self.selectRouteWithStrategy candidates country network revenue self.defaultStrategy

/-- `rank_routes`. -/
def rankRoutes (candidates : List String) (country : String) (network : Option String) (revenue : Option Int64)
    (self : CostRouter) : List RouteCandidate :=
  let routeCandidates := candidates.filterMap fun cluster =>
    let pricing := (self.pricingStore.getPricing ⟨cluster, country, network⟩).getD {}
    some { cluster, effectiveCost := pricing.cost, pricing, score := 0 : RouteCandidate }
  let routeCandidates := routeCandidates.map (RouteCandidate.calculateScore self.defaultStrategy revenue)
  sortByScore routeCandidates

end CostRouter

/-! ## What has been set -/

/-- A call that sets prices. -/
inductive PricingCall where
  | setPricing (key : PricingKey) (pricing : RoutePricing)
  | setDefault (cluster : String) (pricing : RoutePricing)
  | loadFromMap (order : LoadOrder) (pricingMap : Tbl String ClusterPricing)

/-- What a call does to the store. -/
def PricingStore.applied (self : PricingStore) : PricingCall → PricingStore
  | .setPricing key pricing => self.setPricing key pricing
  | .setDefault cluster pricing => self.setDefault cluster pricing
  | .loadFromMap order pricingMap => self.loadFromMap order pricingMap

/-- The store after some calls. -/
def PricingStore.after (calls : List PricingCall) : PricingStore := calls.foldl applied new

/-- What a cluster's configuration says of a country and a network. -/
def ClusterPricing.entry (country : String) (network : Option String) (self : ClusterPricing) :
    Option RoutePricing :=
  match network with
  | none => self.countries.lookup country
  | some network => (self.networks.lookup country).bind fun networks => networks.lookup network

/-- The price under a key after one more call. -/
def PricingCall.entry (key : PricingKey) (earlier : Option RoutePricing) : PricingCall → Option RoutePricing
  | .setPricing key' pricing => if key = key' then some pricing else earlier
  | .setDefault _ _ => earlier
  | .loadFromMap _ pricingMap =>
    ((pricingMap.lookup key.cluster).bind fun c => c.entry key.country key.network).or earlier

/-- The default of a cluster after one more call. -/
def PricingCall.default (cluster : String) (earlier : Option RoutePricing) : PricingCall → Option RoutePricing
  | .setPricing _ _ => earlier
  | .setDefault cluster' pricing => if cluster = cluster' then some pricing else earlier
  | .loadFromMap _ pricingMap => ((pricingMap.lookup cluster).map fun c => c.default).or earlier

/-- **The entry for a key**: what the last call has set that says something of it. -/
def entryOf (calls : List PricingCall) (key : PricingKey) : Option RoutePricing :=
  calls.foldl (fun earlier call => call.entry key earlier) none

/-- The default of a cluster. -/
def defaultOf (calls : List PricingCall) (cluster : String) : Option RoutePricing :=
  calls.foldl (fun earlier call => call.default cluster earlier) none

theorem PricingStore.after_append (calls : List PricingCall) (call : PricingCall) :
    after (calls ++ [call]) = (after calls).applied call := List.foldl_concat _ _ _ _

theorem entryOf_append (calls : List PricingCall) (call : PricingCall) (key : PricingKey) :
    entryOf (calls ++ [call]) key = call.entry key (entryOf calls key) := List.foldl_concat _ _ _ _

theorem defaultOf_append (calls : List PricingCall) (call : PricingCall) (cluster : String) :
    defaultOf (calls ++ [call]) cluster = call.default cluster (defaultOf calls cluster) := List.foldl_concat _ _ _ _

/-- **The price of a cluster**: its entry for the country and the network if there is one, else the one for the
    country, else the default of the cluster, else that of all. -/
def priceOf (calls : List PricingCall) (country : String) (network : Option String) (cluster : String) :
    RoutePricing :=
  match entryOf calls ⟨cluster, country, network⟩, entryOf calls ⟨cluster, country, none⟩, defaultOf calls cluster with
  | some pricing, _, _ => pricing
  | none, some pricing, _ => pricing
  | none, none, some pricing => pricing
  | none, none, none => {}

/-- The cost of a cluster. -/
def costOf (calls : List PricingCall) (country : String) (network : Option String) (cluster : String) : Int :=
  (priceOf calls country network cluster).cost.toInt

/-! ## The store holds what has been set -/

namespace PricingStore

theorem lookup_setPricing (key key' : PricingKey) (pricing : RoutePricing) (self : PricingStore) :
    (self.setPricing key' pricing).pricing.lookup key = if key = key' then some pricing else self.pricing.lookup key := by
  rw [setPricing]
  split
  · rename_i heq
    rw [heq]
    exact AList.lookup_insert _
  · rename_i hne
    exact AList.lookup_insert_ne hne

/-- The loop over the countries says something of the keys of the cluster without a network. -/
theorem lookup_loadCountries (order : LoadOrder) (cluster : String) (countries : Tbl String RoutePricing)
    (self : PricingStore) (key : PricingKey) :
    (self.loadCountries order cluster countries).pricing.lookup key =
      (countries.lookup key.country).elim (self.pricing.lookup key) fun pricing =>
        if key.cluster = cluster ∧ key.network = none then some pricing else self.pricing.lookup key := by
  rw [loadCountries]
  refine observe_walk key.country (fun s : PricingStore => s.pricing.lookup key)
    (fun pricing found => if key.cluster = cluster ∧ key.network = none then some pricing else found)
    (fun s p hp => ?_) (fun s pricing => ?_) _ _ _
  · rw [lookup_setPricing, if_neg]
    rintro rfl
    exact hp rfl
  · rw [lookup_setPricing]
    refine if_congr ?_ rfl rfl
    rw [PricingKey.ext_iff]
    simp only [true_and]

/-- The loop over the networks of a country says something of those with a network. -/
theorem lookup_loadInCountry (order : LoadOrder) (cluster country : String) (networks : Tbl String RoutePricing)
    (self : PricingStore) (key : PricingKey) :
    (self.loadInCountry order cluster country networks).pricing.lookup key =
      (networks.lookup (key.network.getD "")).elim (self.pricing.lookup key) fun pricing =>
        if key.cluster = cluster ∧ key.country = country ∧ key.network.isSome then some pricing
        else self.pricing.lookup key := by
  rw [loadInCountry]
  refine observe_walk (key.network.getD "") (fun s : PricingStore => s.pricing.lookup key)
    (fun pricing found =>
      if key.cluster = cluster ∧ key.country = country ∧ key.network.isSome then some pricing else found)
    (fun s p hp => ?_) (fun s pricing => ?_) _ _ _
  · rw [lookup_setPricing, if_neg]
    rintro rfl
    exact hp rfl
  · rw [lookup_setPricing]
    refine if_congr ?_ rfl rfl
    rw [PricingKey.ext_iff]
    cases key.network <;> simp

theorem lookup_loadNetworks (order : LoadOrder) (cluster : String) (networks : Tbl String (Tbl String RoutePricing))
    (self : PricingStore) (key : PricingKey) :
    (self.loadNetworks order cluster networks).pricing.lookup key =
      (networks.lookup key.country).elim (self.pricing.lookup key) fun inCountry =>
        (inCountry.lookup (key.network.getD "")).elim (self.pricing.lookup key) fun pricing =>
          if key.cluster = cluster ∧ key.network.isSome then some pricing else self.pricing.lookup key := by
  rw [loadNetworks]
  refine observe_walk key.country (fun s : PricingStore => s.pricing.lookup key)
    (fun (inCountry : Tbl String RoutePricing) found => (inCountry.lookup (key.network.getD "")).elim found fun pricing =>
      if key.cluster = cluster ∧ key.network.isSome then some pricing else found)
    (fun s p hp => ?_) (fun s inCountry => ?_) _ _ _
  · rw [lookup_loadInCountry]
    cases p.2.lookup (key.network.getD "") with
    | none => rfl
    | some pricing =>
      apply if_neg
      intro hkey
      exact hp hkey.2.1.symm
  · rw [lookup_loadInCountry]
    simp only [true_and]

/-- **A cluster's configuration** says what its entry for the country and the network of the key says. -/
theorem lookup_loadCluster (order : LoadOrder) (cluster : String) (clusterPricing : ClusterPricing)
    (self : PricingStore) (key : PricingKey) :
    (self.loadCluster order cluster clusterPricing).pricing.lookup key =
      if key.cluster = cluster then (clusterPricing.entry key.country key.network).or (self.pricing.lookup key)
      else self.pricing.lookup key := by
  have hdefault : (self.setDefault cluster clusterPricing.default).pricing = self.pricing := rfl
  rw [loadCluster, lookup_loadNetworks, lookup_loadCountries, hdefault]
  obtain ⟨keyCluster, country, network⟩ := key
  generalize self.pricing.lookup ⟨keyCluster, country, network⟩ = found
  dsimp only
  cases network with
  | none =>
    -- what the networks say is of other keys
    rw [ClusterPricing.entry]
    cases clusterPricing.networks.lookup country with
    | none => cases clusterPricing.countries.lookup country <;> simp
    | some inCountry =>
      simp only [Option.getD_none, Option.elim_some, Option.isSome_none, Bool.false_eq_true, and_false, if_false]
      cases inCountry.lookup "" <;> cases clusterPricing.countries.lookup country <;> simp
  | some network =>
    rw [ClusterPricing.entry]
    cases clusterPricing.networks.lookup country with
    | none => cases clusterPricing.countries.lookup country <;> simp
    | some inCountry =>
      cases hnetwork : inCountry.lookup network <;> cases clusterPricing.countries.lookup country <;> simp [hnetwork]

theorem defaults_loadCluster (order : LoadOrder) (cluster : String) (clusterPricing : ClusterPricing)
    (self : PricingStore) :
    (self.loadCluster order cluster clusterPricing).defaults = self.defaults.insert cluster clusterPricing.default := by
  have hcountry : ∀ (s : PricingStore) (country : String) (networks : Tbl String RoutePricing),
      (s.loadInCountry order cluster country networks).defaults = s.defaults := by
    intro s country networks
    exact List.foldlRecOn (motive := fun t : PricingStore => t.defaults = s.defaults) _ _ rfl fun t ht p _ => ht
  rw [loadCluster, loadNetworks, loadCountries]
  refine List.foldlRecOn
    (motive := fun t : PricingStore => t.defaults = self.defaults.insert cluster clusterPricing.default) _ _ ?_
    fun t ht p _ => (hcountry t p.1 p.2).trans ht
  exact List.foldlRecOn
    (motive := fun t : PricingStore => t.defaults = self.defaults.insert cluster clusterPricing.default) _ _ rfl
    fun t ht p _ => ht

theorem lookup_loadFromMap (order : LoadOrder) (pricingMap : Tbl String ClusterPricing) (self : PricingStore)
    (key : PricingKey) :
    (self.loadFromMap order pricingMap).pricing.lookup key =
      (PricingCall.loadFromMap order pricingMap).entry key (self.pricing.lookup key) := by
  rw [loadFromMap]
  refine (observe_walk key.cluster (fun s : PricingStore => s.pricing.lookup key)
    (fun (c : ClusterPricing) found => (c.entry key.country key.network).or found) (fun s p hp => ?_) (fun s c => ?_)
    _ _ _).trans ?_
  · rw [lookup_loadCluster, if_neg (Ne.symm hp)]
  · rw [lookup_loadCluster, if_pos rfl]
  · rw [PricingCall.entry]
    cases pricingMap.lookup key.cluster <;> rfl

theorem default_loadFromMap (order : LoadOrder) (pricingMap : Tbl String ClusterPricing) (self : PricingStore)
    (cluster : String) :
    (self.loadFromMap order pricingMap).defaults.lookup cluster =
      (PricingCall.loadFromMap order pricingMap).default cluster (self.defaults.lookup cluster) := by
  rw [loadFromMap]
  refine (observe_walk cluster (fun s : PricingStore => s.defaults.lookup cluster)
    (fun (c : ClusterPricing) _ => some c.default) (fun s p hp => ?_) (fun s c => ?_) _ _ _).trans ?_
  · rw [defaults_loadCluster, AList.lookup_insert_ne (Ne.symm hp)]
  · rw [defaults_loadCluster, AList.lookup_insert]
  · rw [PricingCall.default]
    cases pricingMap.lookup cluster <;> rfl

/-- **The store holds what has been set**, under each key and for each cluster. -/
theorem lookup_after (calls : List PricingCall) :
    (∀ key, (after calls).pricing.lookup key = entryOf calls key) ∧
      ∀ cluster, (after calls).defaults.lookup cluster = defaultOf calls cluster := by
  induction calls using List.reverseRecOn with
  | nil => exact ⟨fun key => rfl, fun cluster => rfl⟩
  | append_singleton calls call ih =>
    obtain ⟨hpricing, hdefaults⟩ := ih
    rw [after_append]
    simp only [entryOf_append, defaultOf_append, ← hpricing, ← hdefaults]
    cases call with
    | setPricing key' pricing => exact ⟨fun key => lookup_setPricing key key' pricing _, fun cluster => rfl⟩
    | setDefault cluster' pricing =>
      refine ⟨fun key => rfl, fun cluster => ?_⟩
      rw [applied, setDefault, PricingCall.default]
      split
      · rename_i heq
        rw [heq]
        exact AList.lookup_insert _
      · rename_i hne
        exact AList.lookup_insert_ne hne
    | loadFromMap order pricingMap =>
      exact ⟨lookup_loadFromMap order pricingMap _, default_loadFromMap order pricingMap _⟩

/-- `get_pricing` falls back as the price of a cluster does. -/
theorem getPricing_after (calls : List PricingCall) (country : String) (network : Option String) (cluster : String) :
    ((after calls).getPricing ⟨cluster, country, network⟩).getD {} = priceOf calls country network cluster := by
  obtain ⟨hpricing, hdefaults⟩ := lookup_after calls
  rw [getPricing, priceOf, PricingKey.withoutNetwork, hpricing, hpricing, hdefaults]
  cases network with
  | none =>
    cases entryOf calls ⟨cluster, country, none⟩ with
    | some pricing => rfl
    | none => cases defaultOf calls cluster <;> rfl
  | some network =>
    cases entryOf calls ⟨cluster, country, some network⟩ with
    | some pricing => rfl
    | none =>
      cases entryOf calls ⟨cluster, country, none⟩ with
      | some pricing => rfl
      | none => cases defaultOf calls cluster <;> rfl

end PricingStore

/-! ## Costs -/

/-- No cost that the call sets is negative. -/
def PricingCall.NonNegative : PricingCall → Prop
  | .setPricing _ pricing => 0 ≤ pricing.cost.toInt
  | .setDefault _ pricing => 0 ≤ pricing.cost.toInt
  | .loadFromMap _ pricingMap => ∀ cluster c, pricingMap.lookup cluster = some c →
    0 ≤ c.default.cost.toInt ∧ ∀ country network pricing, c.entry country network = some pricing →
      0 ≤ pricing.cost.toInt

/-- A price that is there costs no less than nothing. -/
def NonNegativeAt (found : Option RoutePricing) : Prop := ∀ pricing, found = some pricing → 0 ≤ pricing.cost.toInt

/-- One more call keeps the price under a key from being negative. -/
theorem PricingCall.NonNegative.entry {call : PricingCall} (h : call.NonNegative) (key : PricingKey)
    {earlier : Option RoutePricing} (hearlier : NonNegativeAt earlier) : NonNegativeAt (call.entry key earlier) := by
  intro pricing hentry
  cases call with
  | setPricing key' set =>
    rw [PricingCall.entry] at hentry
    split at hentry
    · obtain rfl := Option.some.inj hentry
      exact h
    · exact hearlier pricing hentry
  | setDefault cluster set => exact hearlier pricing hentry
  | loadFromMap order pricingMap =>
    rw [PricingCall.entry, Option.or_eq_some_iff] at hentry
    rcases hentry with hfound | ⟨-, hentry⟩
    · obtain ⟨c, hc, hfound⟩ := Option.bind_eq_some_iff.mp hfound
      exact (h key.cluster c hc).2 key.country key.network pricing hfound
    · exact hearlier pricing hentry

/-- And the default of a cluster. -/
theorem PricingCall.NonNegative.default {call : PricingCall} (h : call.NonNegative) (cluster : String)
    {earlier : Option RoutePricing} (hearlier : NonNegativeAt earlier) : NonNegativeAt (call.default cluster earlier) := by
  intro pricing hdefault
  cases call with
  | setPricing key set => exact hearlier pricing hdefault
  | setDefault cluster' set =>
    rw [PricingCall.default] at hdefault
    split at hdefault
    · obtain rfl := Option.some.inj hdefault
      exact h
    · exact hearlier pricing hdefault
  | loadFromMap order pricingMap =>
    rw [PricingCall.default, Option.or_eq_some_iff] at hdefault
    rcases hdefault with hfound | ⟨-, hdefault⟩
    · obtain ⟨c, hc, rfl⟩ := Option.map_eq_some_iff.mp hfound
      exact (h cluster c hc).1
    · exact hearlier pricing hdefault

theorem entryOf_nonneg {calls : List PricingCall} (h : ∀ call ∈ calls, call.NonNegative) (key : PricingKey) :
    NonNegativeAt (entryOf calls key) :=
  List.foldlRecOn calls _ nofun fun earlier hearlier call hcall => (h call hcall).entry key hearlier

theorem defaultOf_nonneg {calls : List PricingCall} (h : ∀ call ∈ calls, call.NonNegative) (cluster : String) :
    NonNegativeAt (defaultOf calls cluster) :=
  List.foldlRecOn calls _ nofun fun earlier hearlier call hcall => (h call hcall).default cluster hearlier

/-- **No cost is negative** if none is set that is. -/
theorem costOf_nonneg {calls : List PricingCall} (h : ∀ call ∈ calls, call.NonNegative) (country : String)
    (network : Option String) (cluster : String) : 0 ≤ costOf calls country network cluster := by
  rw [costOf, priceOf]
  cases hexact : entryOf calls ⟨cluster, country, network⟩ with
  | some pricing => exact entryOf_nonneg h _ pricing hexact
  | none =>
    cases hcountry : entryOf calls ⟨cluster, country, none⟩ with
    | some pricing => exact entryOf_nonneg h _ pricing hcountry
    | none =>
      cases hdefault : defaultOf calls cluster with
      | some pricing => exact defaultOf_nonneg h cluster pricing hdefault
      | none => decide

/-! ## Ranking -/

/-- **The candidates**, with their prices and scores, in the order in which they are given. -/
def scored (calls : List PricingCall) (country : String) (network : Option String) (revenue : Option Int64)
    (strategy : CostRoutingStrategy) (candidates : List String) : List RouteCandidate :=
  candidates.map fun cluster => RouteCandidate.calculateScore strategy revenue
    { cluster, effectiveCost := (priceOf calls country network cluster).cost,
      pricing := priceOf calls country network cluster, score := 0 }

variable {calls : List PricingCall} {candidates : List String} {country : String} {network : Option String}
  {revenue : Option Int64} {strategy : CostRoutingStrategy}

theorem map_cluster_scored : (scored calls country network revenue strategy candidates).map (fun c => c.cluster) =
    candidates := by
  rw [scored, List.map_map]
  exact List.map_id candidates

theorem rankRoutes_eq : (CostRouter.mk (PricingStore.after calls) strategy).rankRoutes candidates country network revenue =
    sortByScore (scored calls country network revenue strategy candidates) := by
  rw [CostRouter.rankRoutes, scored]
  simp only [PricingStore.getPricing_after]
  rw [List.filterMap_eq_map', List.map_map]
  rfl

theorem selectRouteWithStrategy_eq (usual : CostRoutingStrategy) :
    (CostRouter.mk (PricingStore.after calls) usual).selectRouteWithStrategy candidates country network revenue strategy =
      (sortByScore (scored calls country network revenue strategy candidates)).head?.map fun c => c.cluster := by
  rw [CostRouter.selectRouteWithStrategy, scored]
  simp only [PricingStore.getPricing_after]
  rw [List.filterMap_eq_map', List.map_map]
  cases candidates with
  | nil => rfl
  | cons cluster candidates => rfl

theorem sortByScore_perm (candidates : List RouteCandidate) : (sortByScore candidates).Perm candidates :=
  List.perm_insertionSort _ _

theorem sortByScore_pairwise (candidates : List RouteCandidate) :
    (sortByScore candidates).Pairwise fun a b => b.score ≤ a.score := by
  exact List.pairwise_insertionSort _ _

/-- The score falls as the cost rises. -/
theorem score_le_score_iff {a b : Int} (ha : 0 ≤ a) (hb : 0 ≤ b) :
    1 / ((b : ℚ) + 1) ≤ 1 / ((a : ℚ) + 1) ↔ a ≤ b := by
  have hpos : (0 : ℚ) < (a : ℚ) + 1 := by exact_mod_cast Int.lt_add_one_of_le ha
  have hpos' : (0 : ℚ) < (b : ℚ) + 1 := by exact_mod_cast Int.lt_add_one_of_le hb
  rw [one_div_le_one_div hpos' hpos, add_le_add_iff_right, Int.cast_le]

/-- **By least cost the candidates are sorted by their costs**, equals as they come. -/
theorem sortByScore_leastCost (h : ∀ call ∈ calls, call.NonNegative) :
    (sortByScore (scored calls country network revenue .leastCost candidates)).map (fun c => c.cluster) =
      candidates.insertionSort fun x y => costOf calls country network x ≤ costOf calls country network y := by
  have hcost : ∀ a ∈ scored calls country network revenue .leastCost candidates,
      a.score = 1 / ((costOf calls country network a.cluster : ℚ) + 1) := by
    intro a ha
    obtain ⟨cluster, -, rfl⟩ := List.mem_map.mp ha
    rfl
  rw [sortByScore, List.map_insertionSort _
    (fun x y => costOf calls country network x ≤ costOf calls country network y), map_cluster_scored]
  intro a ha b hb
  rw [hcost a ha, hcost b hb]
  exact score_le_score_iff (costOf_nonneg h _ _ _) (costOf_nonneg h _ _ _)

/-- **Routing by cost.**  Whatever prices have been set, if none is negative: the route of least cost is the first
    of the candidates of minimal cost; and under any strategy the ranking rearranges the candidates, with scores
    that do not rise, and its head is the route that is selected. -/
theorem least_cost_routing (calls : List PricingCall) (h : ∀ call ∈ calls, call.NonNegative)
    (strategy : CostRoutingStrategy) (candidates : List String) (hsome : candidates ≠ []) (country : String)
    (network : Option String) (revenue : Option Int64) :
    (∃ cluster,
        (CostRouter.mk (PricingStore.after calls) strategy).selectRouteWithStrategy candidates country network revenue
          .leastCost = some cluster ∧
        Rank.Earliest (fun _ => True) (costOf calls country network) candidates cluster) ∧
      (((CostRouter.mk (PricingStore.after calls) strategy).rankRoutes candidates country network revenue).map
        fun c => c.cluster).Perm candidates ∧
      ((CostRouter.mk (PricingStore.after calls) strategy).rankRoutes candidates country network revenue).Pairwise
        (fun a b => b.score ≤ a.score) ∧
      (((CostRouter.mk (PricingStore.after calls) strategy).rankRoutes candidates country network revenue).head?.map
        fun c => c.cluster) =
        (CostRouter.mk (PricingStore.after calls) strategy).selectRoute candidates country network revenue := by
  rw [rankRoutes_eq, selectRouteWithStrategy_eq, CostRouter.selectRoute, selectRouteWithStrategy_eq]
  refine ⟨?_, ?_, sortByScore_pairwise _, rfl⟩
  · rw [← List.head?_map, sortByScore_leastCost h]
    obtain ⟨first, hfirst⟩ := List.exists_mem_of_ne_nil candidates hsome
    have hexists : ∃ cluster, Rank.Earliest (fun _ => True) (costOf calls country network) candidates cluster :=
      Rank.exists_earliest_iff.mpr ⟨first, hfirst, trivial⟩
    obtain ⟨cluster, hearliest⟩ := hexists
    exact ⟨cluster, Rank.earliest_iff_head.mp hearliest, hearliest⟩
  · have hperm := (sortByScore_perm (scored calls country network revenue strategy candidates)).map fun c => c.cluster
    rw [map_cluster_scored] at hperm
    exact hperm

/-- Three clusters with their defaults; the last is the cheapest. -/
def threeDefaults : List PricingCall :=
  [.setDefault "vodacom" { cost := 15 }, .setDefault "mtn" { cost := 10 }, .setDefault "movitel" { cost := 8 }]

theorem least_cost_routing_three :
    (CostRouter.mk (PricingStore.after threeDefaults) .balanced).selectRouteWithStrategy ["vodacom", "mtn", "movitel"]
        "MZ" none none .leastCost = some "movitel" ∧
      ∃ cluster,
        (CostRouter.mk (PricingStore.after threeDefaults) .balanced).selectRouteWithStrategy
          ["vodacom", "mtn", "movitel"] "MZ" none none .leastCost = some cluster ∧
        Rank.Earliest (fun _ => True) (costOf threeDefaults "MZ" none) ["vodacom", "mtn", "movitel"] cluster := by
  have hnonneg : ∀ call ∈ threeDefaults, call.NonNegative := by
    simp only [threeDefaults, List.forall_mem_cons, PricingCall.NonNegative]
    exact ⟨by decide, by decide, by decide, nofun⟩
  refine ⟨by decide +kernel, ?_⟩
  exact (least_cost_routing threeDefaults hnonneg .balanced ["vodacom", "mtn", "movitel"] (by simp) "MZ" none none).1

end Smppd.Router
