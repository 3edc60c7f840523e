/-
  The ROUTER (`src/router/router.rs`): from a message to the clusters it may go to.

  `Router::new` compiles the routes one after the other, gives up at the first that does not compile,
  and sorts what it has by priority, equal priorities in the order of the configuration.
  `route_context` takes the first route that matches; a route with a traffic split draws its cluster
  from a counter, so a call also leaves a router with that counter moved on.

  * `Router.CanReturn.named`, `Router.named_new` — a router returns what its routes name, and these name
    what their configuration names;
  * `Router.exists_new_eq_ok` — a router compiles when every route has a target and every pattern that
    is used compiles.

  Weights are added up in `u32` and the counter counts in `usize`; both wrap.
-/
import Mathlib.Data.List.Sort
import Smppd.Router.Matcher
import Smppd.Cluster.Clusters

set_option linter.unusedVariables false
set_option linter.dupNamespace false

namespace Smppd.Router

open Smppd.Store Smppd.Gateway Smppd.Cluster Fallible

variable {Rx Tz : Type}

/-! ## Traffic splits -/

/-- Weighted traffic split: cluster names with cumulative weights. -/
structure WeightedSplit where
  clusters : List (String × UInt32)
  totalWeight : UInt32
  counter : UInt64

/-- The loop of `WeightedSplit::new`, from a weight that has been added up so far. -/
def WeightedSplit.accumulate : UInt32 → List TrafficSplit → List (String × UInt32) × UInt32
  | cumulative, [] => ([], cumulative)
  | cumulative, split :: splits =>
    let cumulative := cumulative + split.weight
    let (clusters, total) := accumulate cumulative splits
    ((split.cluster, cumulative) :: clusters, total)

/-- `WeightedSplit::new`. -/
def WeightedSplit.new (splits : List TrafficSplit) : WeightedSplit :=
  let (clusters, total) := accumulate 0 splits
  ⟨clusters, total, 0⟩

/-- `WeightedSplit::select`. -/
def WeightedSplit.select (self : WeightedSplit) : Option String × WeightedSplit :=
  if self.clusters.isEmpty ∨ self.totalWeight = 0 then (none, self)
  else
    let point := self.counter.toUInt32 % self.totalWeight
    let chosen := (self.clusters.find? fun c => point < c.2).or self.clusters.getLast?
    (chosen.map Prod.fst, { self with counter := self.counter + 1 })

/-! ## Routes -/

/-- Target for a route: either a single cluster or a traffic split. -/
inductive RouteTarget where
  | single (cluster : String)
  | split (split : WeightedSplit)

/-- The cluster that a target yields for a message. -/
def RouteTarget.select : RouteTarget → Option String × RouteTarget
  | .single cluster => (some cluster, .single cluster)
  | .split s =>
    let (chosen, s') := s.select
    (chosen, .split s')

/-- A compiled route. -/
structure Route (Rx : Type) where
  name : String
  matcher : Matcher Rx
  target : RouteTarget
  fallback : List String
  priority : Int

/-- Router errors. -/
inductive RouterError where
  | invalidRegex (e : String)
  | unknownCluster (route cluster : String)
  | invalidRoute (route reason : String)

/-- A matcher of the builder; its error becomes one of the router. -/
def compileKind (regexes : Regexes Rx) (kind : MatcherKind) :
    Except RouterError (CompiledMatcher Rx) :=
  (CompiledMatcher.new regexes kind).mapError .invalidRegex

/-- The kind of destination a route asks for: the new-style condition, if it is there, or else the
    legacy prefix, or else the legacy regex. -/
def destinationKind (match_ : RouteMatch) : Option MatcherKind :=
  match match_.destination, match_.pre, match_.regex with
  | some cond, _, _ => MatcherKind.fromCondition cond
  | none, some text, _ => some (.ofPrefix text)
  | none, none, some pattern => some (.regex pattern)
  | none, none, none => none

/-- A matcher, if one is asked for. -/
def compileOptional (regexes : Regexes Rx) :
    Option MatcherKind → Except RouterError (Option (CompiledMatcher Rx))
  | some kind => do
    let matcher ← compileKind regexes kind
    pure (some matcher)
  | none => pure none

/-- The target of a route. -/
def compileTarget (config : RouteConfig) : Except RouterError RouteTarget :=
  match config.split, config.cluster with
  | some splits, _ => pure (.split (.new splits))
  | none, some cluster => pure (.single cluster)
  | none, none => throw (.invalidRoute config.name "route must have either 'cluster' or 'split' target")

/-- `compile_route`. -/
def compileRoute (regexes : Regexes Rx) (config : RouteConfig) : Except RouterError (Route Rx) := do
  let destination ← compileOptional regexes (destinationKind config.match_)
  let source ← compileOptional regexes (config.match_.source.bind MatcherKind.fromCondition)
  let senderId ← compileOptional regexes (config.match_.senderId.bind MatcherKind.fromCondition)
  let target ← compileTarget config
  pure {
    name := config.name
    matcher := {
      destination := destination
      source := source
      senderId := senderId
      systemId := config.match_.systemId
      serviceType := config.match_.serviceType
      esmClass := config.match_.esmClass
      dataCoding := config.match_.dataCoding
      timeWindow := config.match_.timeWindow }
    target := target
    fallback := config.fallback.getD []
    priority := config.priority }

/-! ## The router -/

/-- Message router. -/
structure Router (Rx : Type) where
  routes : List (Route Rx)
  clusters : Clusters

/-- `Router::new`. -/
def Router.new (regexes : Regexes Rx) (configs : List RouteConfig) (clusters : Clusters) :
    Except RouterError (Router Rx) := do
  let routes ← collect (compileRoute regexes) configs
  pure ⟨routes.insertionSort fun a b => a.priority ≤ b.priority, clusters⟩

section Routing

variable (regexes : Regexes Rx) (zones : Zones Tz) (wall : SystemTime)

/-- The loop of `route_context`. -/
def routeAmong (ctx : MatchContext) : List (Route Rx) → Option RouteResult × List (Route Rx)
  | [] => (none, [])
  | route :: routes =>
    if route.matcher.matchesContext regexes zones wall ctx then
      let (clusterName, target) := route.target.select
      (clusterName.map fun name => ⟨route.name, name, route.fallback⟩,
        { route with target := target } :: routes)
    else
      let (result, routes') := routeAmong ctx routes
      (result, route :: routes')

/-- `route_context`: the result, and the router with its counters moved on. -/
def Router.routeContext (self : Router Rx) (ctx : MatchContext) : Option RouteResult × Router Rx :=
  let (result, routes) := routeAmong regexes zones wall ctx self.routes
  (result, { self with routes := routes })

/-- `Router::route`. -/
def Router.route (self : Router Rx) (destination : String) (source senderId : Option String) :
    Option RouteResult × Router Rx :=
  self.routeContext regexes zones wall { destination, source, senderId }

end Routing

/-- A lookup: when, and for what. -/
structure Lookup where
  wall : SystemTime
  ctx : MatchContext

/-- The router after a sequence of lookups. -/
def Router.serve (regexes : Regexes Rx) (zones : Zones Tz) : Router Rx → List Lookup → Router Rx
  | router, [] => router
  | router, lookup :: lookups =>
    serve regexes zones (router.routeContext regexes zones lookup.wall lookup.ctx).2 lookups

/-- The router can return the name: some lookup, after some others, has it as its cluster or among its
    fallbacks. -/
def Router.CanReturn (regexes : Regexes Rx) (zones : Zones Tz) (self : Router Rx) (name : String) :
    Prop :=
  ∃ (lookups : List Lookup) (last : Lookup) (result : RouteResult),
    ((self.serve regexes zones lookups).routeContext regexes zones last.wall last.ctx).1 = some result ∧
      name ∈ result.clustersToTry

/-! ## What a router names -/

/-- The clusters a target can yield. -/
def RouteTarget.names : RouteTarget → List String
  | .single cluster => [cluster]
  | .split s => s.clusters.map Prod.fst

/-- The clusters a route names. -/
def Route.names (route : Route Rx) : List String := route.target.names ++ route.fallback

/-- The clusters the configuration of a route names. -/
def targetNames (config : RouteConfig) : List String :=
  match config.split, config.cluster with
  | some splits, _ => splits.map fun s => s.cluster
  | none, some cluster => [cluster]
  | none, none => []

theorem accumulate_fst (cumulative : UInt32) (splits : List TrafficSplit) :
    (WeightedSplit.accumulate cumulative splits).1.map Prod.fst = splits.map fun s => s.cluster := by
  induction splits generalizing cumulative with
  | nil => rfl
  | cons split splits ih => exact congrArg _ (ih _)

/-- A split yields one of its clusters, and only its counter changes. -/
theorem WeightedSplit.select_spec (s : WeightedSplit) :
    (∀ name, s.select.1 = some name → name ∈ s.clusters.map Prod.fst) ∧
      s.select.2.clusters = s.clusters := by
  unfold WeightedSplit.select
  split
  · exact ⟨nofun, rfl⟩
  · refine ⟨fun name hname => ?_, rfl⟩
    obtain ⟨c, hc, rfl⟩ := Option.map_eq_some_iff.mp hname
    refine List.mem_map_of_mem ?_
    rcases Option.or_eq_some_iff.mp hc with hfind | ⟨-, hlast⟩
    · exact List.mem_of_find?_eq_some hfind
    · exact List.mem_of_getLast? hlast

/-- A target yields what it names, and still names the same. -/
theorem RouteTarget.select_spec (target : RouteTarget) :
    (∀ name, target.select.1 = some name → name ∈ target.names) ∧
      target.select.2.names = target.names := by
  cases target with
  | single cluster =>
    refine ⟨fun name hname => ?_, rfl⟩
    cases hname
    exact List.mem_cons_self
  | split s =>
    refine ⟨s.select_spec.1, ?_⟩
    exact congrArg (List.map Prod.fst) s.select_spec.2

section Returned

variable {regexes : Regexes Rx} {zones : Zones Tz} {wall : SystemTime} {ctx : MatchContext}

/-- A result comes from a route and has what it names. -/
theorem routeAmong_result {routes : List (Route Rx)} {result : RouteResult}
    (h : (routeAmong regexes zones wall ctx routes).1 = some result) :
    ∃ route ∈ routes, ∀ name ∈ result.clustersToTry, name ∈ route.names := by
  induction routes with
  | nil => cases h
  | cons route routes ih =>
    unfold routeAmong at h
    split at h
    · obtain ⟨chosen, hchosen, rfl⟩ := Option.map_eq_some_iff.mp h
      refine ⟨route, List.mem_cons_self, fun name hname => ?_⟩
      rcases List.mem_cons.mp hname with rfl | hfallback
      · exact List.mem_append_left _ (route.target.select_spec.1 _ hchosen)
      · exact List.mem_append_right _ hfallback
    · obtain ⟨route', hmem, hnames⟩ := ih h
      exact ⟨route', List.mem_cons_of_mem _ hmem, hnames⟩

/-- A lookup leaves what the routes name. -/
theorem routeAmong_names (routes : List (Route Rx)) :
    (routeAmong regexes zones wall ctx routes).2.map Route.names = routes.map Route.names := by
  induction routes with
  | nil => rfl
  | cons route routes ih =>
    unfold routeAmong
    split
    · have hsame : Route.names { route with target := route.target.select.2 } = route.names :=
        congrArg (· ++ route.fallback) route.target.select_spec.2
      rw [List.map_cons, List.map_cons, ← hsame]
    · rw [List.map_cons, List.map_cons, ← ih]

/-- The clusters a router names. -/
def Router.names (self : Router Rx) : List (List String) := self.routes.map Route.names

theorem Router.serve_names (router : Router Rx) (lookups : List Lookup) :
    (router.serve regexes zones lookups).names = router.names := by
  induction lookups generalizing router with
  | nil => rfl
  | cons lookup lookups ih => exact (ih _).trans (routeAmong_names router.routes)

/-- **A router returns only what its routes name.** -/
theorem Router.CanReturn.named {router : Router Rx} {name : String}
    (h : router.CanReturn regexes zones name) : ∃ names ∈ router.names, name ∈ names := by
  obtain ⟨lookups, last, result, hresult, hname⟩ := h
  obtain ⟨route, hroute, hnames⟩ := routeAmong_result hresult
  refine ⟨route.names, ?_, hnames name hname⟩
  rw [← router.serve_names lookups]
  exact List.mem_map_of_mem hroute

/-- Lookups one after the other. -/
theorem Router.serve_append (router : Router Rx) (lookups more : List Lookup) :
    router.serve regexes zones (lookups ++ more) =
      (router.serve regexes zones lookups).serve regexes zones more := by
  induction lookups generalizing router with
  | nil => rfl
  | cons lookup lookups ih => exact ih _

/-- What a router can return after some lookups, it can return. -/
theorem Router.CanReturn.of_serve {router : Router Rx} {name : String} {lookups : List Lookup}
    (h : (router.serve regexes zones lookups).CanReturn regexes zones name) :
    router.CanReturn regexes zones name := by
  obtain ⟨more, last, result, hresult, hname⟩ := h
  rw [← Router.serve_append] at hresult
  exact ⟨lookups ++ more, last, result, hresult, hname⟩

end Returned

/-! ## What compiles, and what it names -/

section Compiling

variable {regexes : Regexes Rx}

theorem exists_compileKind_eq_ok {kind : MatcherKind} :
    (∃ m, compileKind regexes kind = .ok m) ↔ kind.Compiles regexes := by
  rw [← exists_compiled_eq_ok]
  unfold compileKind
  cases CompiledMatcher.new regexes kind with
  | error e =>
    refine iff_of_false ?_ ?_
    · rintro ⟨m, hm⟩
      cases hm
    · rintro ⟨m, hm⟩
      cases hm
  | ok m => exact iff_of_true ⟨m, rfl⟩ ⟨m, rfl⟩

theorem exists_compileOptional_eq_ok {kind : Option MatcherKind} :
    (∃ m, compileOptional regexes kind = .ok m) ↔ ∀ k, kind = some k → k.Compiles regexes := by
  cases kind with
  | none => exact iff_of_true ⟨none, rfl⟩ nofun
  | some k =>
    constructor
    · rintro ⟨m, hm⟩ k' hk'
      cases hk'
      obtain ⟨m', hm', -⟩ := bind_eq_ok.mp hm
      exact exists_compileKind_eq_ok.mp ⟨m', hm'⟩
    · intro h
      obtain ⟨m, hm⟩ := exists_compileKind_eq_ok.mpr (h k rfl)
      exact ⟨some m, bind_eq_ok.mpr ⟨m, hm, rfl⟩⟩

/-- Every pattern that the route asks to match with compiles. -/
def PatternsCompile (regexes : Regexes Rx) (match_ : RouteMatch) : Prop :=
  (∀ k, destinationKind match_ = some k → k.Compiles regexes) ∧
    (∀ k, match_.source.bind MatcherKind.fromCondition = some k → k.Compiles regexes) ∧
    ∀ k, match_.senderId.bind MatcherKind.fromCondition = some k → k.Compiles regexes

/-- The route says where it leads to. -/
def HasTarget (config : RouteConfig) : Prop := config.split ≠ none ∨ config.cluster ≠ none

theorem exists_compileTarget_eq_ok {config : RouteConfig} :
    (∃ target, compileTarget config = .ok target) ↔ HasTarget config := by
  unfold compileTarget HasTarget
  cases config.split with
  | some splits => exact iff_of_true ⟨_, rfl⟩ (Or.inl (Option.some_ne_none splits))
  | none =>
    cases config.cluster with
    | some cluster => exact iff_of_true ⟨_, rfl⟩ (Or.inr (Option.some_ne_none cluster))
    | none =>
      refine iff_of_false ?_ fun h => h.elim (fun h => h rfl) fun h => h rfl
      rintro ⟨target, htarget⟩
      cases htarget

/-- **What it takes for a route to compile.** -/
theorem exists_compileRoute_eq_ok (regexes : Regexes Rx) {config : RouteConfig} :
    (∃ route, compileRoute regexes config = .ok route) ↔
      PatternsCompile regexes config.match_ ∧ HasTarget config := by
  unfold compileRoute PatternsCompile
  simp only [bind_eq_ok]
  rw [← exists_compileOptional_eq_ok, ← exists_compileOptional_eq_ok, ← exists_compileOptional_eq_ok,
    ← exists_compileTarget_eq_ok]
  constructor
  · rintro ⟨route, d, hd, s, hs, i, hi, t, ht, -⟩
    exact ⟨⟨⟨d, hd⟩, ⟨s, hs⟩, ⟨i, hi⟩⟩, t, ht⟩
  · rintro ⟨⟨⟨d, hd⟩, ⟨s, hs⟩, ⟨i, hi⟩⟩, t, ht⟩
    exact ⟨_, d, hd, s, hs, i, hi, t, ht, rfl⟩

/-- A compiled target names what its configuration names. -/
theorem compileTarget_names {config : RouteConfig} {target : RouteTarget}
    (h : compileTarget config = .ok target) : target.names = targetNames config := by
  unfold compileTarget at h
  unfold targetNames
  cases hsplit : config.split with
  | some splits =>
    rw [hsplit] at h
    cases h
    exact accumulate_fst 0 splits
  | none =>
    rw [hsplit] at h
    cases hcluster : config.cluster with
    | some cluster =>
      rw [hcluster] at h
      cases h
      rfl
    | none =>
      rw [hcluster] at h
      cases h

/-- A compiled route names what its configuration names. -/
theorem compileRoute_names {config : RouteConfig} {route : Route Rx}
    (h : compileRoute regexes config = .ok route) :
    route.names = targetNames config ++ config.fallback.getD [] := by
  unfold compileRoute at h
  simp only [bind_eq_ok] at h
  obtain ⟨d, -, s, -, i, -, t, ht, hroute⟩ := h
  cases hroute
  exact congrArg (· ++ config.fallback.getD []) (compileTarget_names ht)

/-- **What it takes for a router to compile.** -/
theorem Router.exists_new_eq_ok {configs : List RouteConfig} {clusters : Clusters} :
    (∃ router, Router.new regexes configs clusters = .ok router) ↔
      ∀ config ∈ configs, PatternsCompile regexes config.match_ ∧ HasTarget config := by
  unfold Router.new
  simp only [bind_eq_ok, ← exists_compileRoute_eq_ok regexes]
  rw [← exists_collect_eq_ok]
  constructor
  · rintro ⟨router, routes, hroutes, -⟩
    exact ⟨routes, hroutes⟩
  · rintro ⟨routes, hroutes⟩
    exact ⟨_, routes, hroutes, rfl⟩

/-- **What a compiled router names.** -/
theorem Router.named_new {configs : List RouteConfig} {clusters : Clusters} {router : Router Rx}
    (h : Router.new regexes configs clusters = .ok router) {names : List String}
    (hnames : names ∈ router.names) :
    ∃ config ∈ configs, names = targetNames config ++ config.fallback.getD [] := by
  obtain ⟨routes, hroutes, hrouter⟩ := bind_eq_ok.mp h
  cases hrouter
  obtain ⟨route, hroute, rfl⟩ := List.mem_map.mp hnames
  have hmem : route ∈ routes := (List.perm_insertionSort _ routes).mem_iff.mp hroute
  obtain ⟨config, hconfig, hcompile⟩ := exists_of_mem_collect hroutes hmem
  exact ⟨config, hconfig, compileRoute_names hcompile⟩

end Compiling

end Smppd.Router
