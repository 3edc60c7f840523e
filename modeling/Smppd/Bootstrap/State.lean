/-
  The shared GATEWAY STATE (`src/bootstrap/state.rs`), and what a reload does to it.

  `GatewayState::new` builds the clusters and the router of one configuration.  `reload` builds both
  again, puts the new router in place of the old one, and drops the new clusters with it: the field
  `clusters`, in which the forwarders look names up, cannot be replaced behind a shared reference and
  stays as it was at start-up.

  So after a reload the router speaks of the new configuration and the forwarders of the first one.
  `routing_consistent_iff` says when nobody can tell: each reload may only return names that the first
  configuration has, with the same endpoints.

  The storage of the state is the subject of the store modules and left out here.
-/
import Smppd.Lib.Machine
import Smppd.Config.Loader
import Smppd.Router.Router

set_option linter.unusedVariables false

namespace Smppd.Bootstrap

open Smppd.Store Smppd.Cluster Smppd.Router Machine Fallible

variable {Rx Tz : Type}

/-- Shared gateway state. -/
structure GatewayState (Rx : Type) where
  router : Router Rx
  clusters : Clusters
  config : Config

/-- `GatewayState::new`. -/
def GatewayState.new (regexes : Regexes Rx) (config : Config) :
    Except RouterError (GatewayState Rx) := do
  let clusters := Clusters.new config.clusters
  let router ← Router.new regexes config.routes clusters
  pure ⟨router, clusters, config⟩

/-- `GatewayState::reload`. -/
def GatewayState.reload (regexes : Regexes Rx) (self : GatewayState Rx) (newConfig : Config) :
    Except RouterError (GatewayState Rx) := do
  let newClusters := Clusters.new newConfig.clusters
  let newRouter ← Router.new regexes newConfig.routes newClusters
  pure { self with router := newRouter }

/-! ## The state in use -/

/-- A gateway state, with the configuration its router was built from. -/
structure Routing (Rx : Type) where
  gateway : GatewayState Rx
  routed : Config

/-- What is done with a gateway state. -/
inductive Use where
  /-- A reload with a configuration that passes validation. -/
  | reload (config : Config)
  | lookup (lookup : Lookup)

/-- One use; only a reload that succeeds counts. -/
def use (regexes : Regexes Rx) (zones : Zones Tz) (s : Routing Rx) : Use → Option (Routing Rx)
  | .reload config => do
    config.validate.toOption
    let gateway ← (s.gateway.reload regexes config).toOption
    pure ⟨gateway, config⟩
  | .lookup l =>
    some { s with gateway := { s.gateway with
      router := (s.gateway.router.routeContext regexes zones l.wall l.ctx).2 } }

/-- Every name that the router can return is that of a cluster which the forwarders find, with the
    endpoints it has in the configuration the router was built from. -/
def Consistent (regexes : Regexes Rx) (zones : Zones Tz) (s : Routing Rx) : Prop :=
  ∀ name, s.gateway.router.CanReturn regexes zones name →
    ∃ cluster, s.gateway.clusters.get name = some cluster ∧
      ∃ config ∈ s.routed.clusters, config.name = name ∧
        cluster.endpoints = buildEndpoints name config.endpoints

/-- Every name that the router of a configuration can return is one that the first configuration has too,
    with the same endpoints. -/
def Carried (regexes : Regexes Rx) (zones : Zones Tz) (start config : Config) : Prop :=
  ∀ router, Router.new regexes config.routes (Clusters.new config.clusters) = .ok router →
    ∀ name, router.CanReturn regexes zones name →
      ∃ old ∈ start.clusters, old.name = name ∧
        ∃ new ∈ config.clusters, new.name = name ∧ old.endpoints = new.endpoints

/-! ## Names and endpoints -/

/-- Endpoints tell their configurations apart. -/
theorem buildEndpoints_inj {name : String} {a b : List EndpointConfig} :
    buildEndpoints name a = buildEndpoints name b ↔ a = b := by
  refine ⟨fun h => ?_, fun h => congrArg _ h⟩
  have hlength : a.length = b.length := by
    have := congrArg List.length h
    rwa [buildEndpoints, buildEndpoints, List.length_mapIdx, List.length_mapIdx] at this
  refine List.ext_getElem hlength fun i ha hb => ?_
  have hget : (buildEndpoints name a)[i]? = (buildEndpoints name b)[i]? := by rw [h]
  rw [buildEndpoints, buildEndpoints, List.getElem?_mapIdx, List.getElem?_mapIdx,
    List.getElem?_eq_getElem ha, List.getElem?_eq_getElem hb] at hget
  have hendpoint := Option.some.inj hget
  simp only [Endpoint.new, Endpoint.mk.injEq] at hendpoint
  obtain ⟨-, -, haddress, hsystem, hpassword, htype, hweight⟩ := hendpoint
  cases hx : a[i]
  cases hy : b[i]
  rw [hx, hy] at haddress hsystem hpassword htype hweight
  simp only at haddress hsystem hpassword htype hweight
  rw [haddress, hsystem, hpassword, htype, hweight]

/-- What a sound configuration names is configured. -/
theorem mem_clusterNames_of_named {config : Config} (h : config.Sound) {route : RouteConfig}
    (hroute : route ∈ config.routes) {name : String}
    (hname : name ∈ targetNames route ++ route.fallback.getD []) : name ∈ config.clusterNames := by
  rcases List.mem_append.mp hname with htarget | hfallback
  · unfold targetNames at htarget
    cases hsplit : route.split with
    | some splits =>
      rw [hsplit] at htarget
      obtain ⟨s, hs, rfl⟩ := List.mem_map.mp htarget
      exact h.split route hroute splits hsplit s hs
    | none =>
      rw [hsplit] at htarget
      cases hcluster : route.cluster with
      | some cluster =>
        rw [hcluster] at htarget
        rw [List.mem_singleton.mp htarget]
        exact h.cluster route hroute cluster hcluster
      | none =>
        rw [hcluster] at htarget
        cases htarget
  · exact h.fallback route hroute name hfallback

/-- **Validation is sound for routing**: what the router of a sound configuration can return is
    configured. -/
theorem exists_config_of_canReturn {regexes : Regexes Rx} {zones : Zones Tz} {config : Config}
    (hsound : config.Sound) {clusters : Clusters} {router : Router Rx}
    (hrouter : Router.new regexes config.routes clusters = .ok router) {name : String}
    (hname : router.CanReturn regexes zones name) : ∃ c ∈ config.clusters, c.name = name := by
  obtain ⟨names, hnames, hmem⟩ := hname.named
  obtain ⟨route, hroute, rfl⟩ := Router.named_new hrouter hnames
  exact List.mem_map.mp (mem_clusterNames_of_named hsound hroute hmem)

/-! ## Runs -/

section Runs

variable {regexes : Regexes Rx} {zones : Zones Tz} {start : Config} {s s' : Routing Rx}

/-- The clusters are those of the first configuration, whatever the router is. -/
def Stale (start : Config) (s : Routing Rx) : Prop :=
  s.gateway.clusters = Clusters.new start.clusters

/-- What a reload that succeeds does. -/
theorem use_reload_eq_some {config : Config} :
    use regexes zones s (.reload config) = some s' ↔
      config.validate = .ok () ∧ ∃ router,
        Router.new regexes config.routes (Clusters.new config.clusters) = .ok router ∧
        s' = ⟨{ s.gateway with router := router }, config⟩ := by
  constructor
  · intro h
    obtain ⟨u, hvalid, hrest⟩ := Option.bind_eq_some_iff.mp h
    obtain ⟨gateway, hreload, hs'⟩ := Option.bind_eq_some_iff.mp hrest
    obtain ⟨router, hrouter, hgateway⟩ := bind_eq_ok.mp (toOption_eq_some.mp hreload)
    cases hgateway
    cases hs'
    exact ⟨toOption_eq_some.mp hvalid, router, hrouter, rfl⟩
  · rintro ⟨hvalid, router, hrouter, rfl⟩
    have hreload : s.gateway.reload regexes config = .ok { s.gateway with router := router } :=
      bind_eq_ok.mpr ⟨router, hrouter, rfl⟩
    exact Option.bind_eq_some_iff.mpr ⟨(), toOption_eq_some.mpr hvalid,
      Option.bind_eq_some_iff.mpr ⟨_, toOption_eq_some.mpr hreload, rfl⟩⟩

/-- No use replaces the clusters. -/
theorem Stale.use (h : Stale start s) {u : Use} (hstep : use regexes zones s u = some s') :
    Stale start s' := by
  cases u with
  | reload config =>
    obtain ⟨-, router, -, rfl⟩ := use_reload_eq_some.mp hstep
    exact h
  | lookup l =>
    cases hstep
    exact h

/-- **A fresh router over the first clusters is consistent exactly when its names are carried.** -/
theorem consistent_fresh_iff (hsound : start.Sound) {config : Config} {router : Router Rx}
    (hrouter : Router.new regexes config.routes (Clusters.new config.clusters) = .ok router)
    (hclusters : s.gateway.clusters = Clusters.new start.clusters)
    (hs : s.gateway.router = router) (hrouted : s.routed = config) :
    Consistent regexes zones s ↔ Carried regexes zones start config := by
  subst hs hrouted
  constructor
  · intro hconsistent router' hrouter' name hname
    rw [hrouter] at hrouter'
    cases hrouter'
    obtain ⟨cluster, hget, new, hnew, hnewName, hendpoints⟩ := hconsistent name hname
    rw [hclusters] at hget
    obtain ⟨old, hold, holdName, rfl⟩ := Clusters.get_new_eq_some hget
    refine ⟨old, hold, holdName, new, hnew, hnewName, ?_⟩
    rw [← holdName] at hendpoints
    exact buildEndpoints_inj.mp hendpoints
  · intro hcarried name hname
    obtain ⟨old, hold, rfl, new, hnew, hnewName, hendpoints⟩ := hcarried _ hrouter name hname
    refine ⟨.new old, ?_, new, hnew, hnewName, ?_⟩
    · rw [hclusters]
      exact Clusters.get_new_of_mem hsound.clusters hold
    · rw [← hendpoints]
      rfl

/-- A sound configuration carries itself. -/
theorem carried_self (hsound : start.Sound) : Carried regexes zones start start := by
  intro router hrouter name hname
  obtain ⟨c, hc, hcName⟩ := exists_config_of_canReturn hsound hrouter hname
  exact ⟨c, hc, hcName, c, hc, hcName, rfl⟩

/-- The reloads of a run carry their names. -/
def CarriedUse (regexes : Regexes Rx) (zones : Zones Tz) (start : Config) : Use → Prop
  | .reload config => Carried regexes zones start config
  | .lookup _ => True

/-- **Each use keeps the state consistent exactly when it carries its names.** -/
theorem Consistent.use_iff (hsound : start.Sound) (hstale : Stale start s)
    (h : Consistent regexes zones s) {u : Use} (hstep : use regexes zones s u = some s') :
    Consistent regexes zones s' ↔ CarriedUse regexes zones start u := by
  cases u with
  | reload config =>
    obtain ⟨-, router, hrouter, rfl⟩ := use_reload_eq_some.mp hstep
    exact consistent_fresh_iff hsound hrouter hstale rfl rfl
  | lookup l =>
    cases hstep
    refine iff_of_true (fun name hname => h name ?_) trivial
    have hserved : (s.gateway.router.serve regexes zones [l]).CanReturn regexes zones name := hname
    exact hserved.of_serve

/-- **Routing and clusters stay consistent exactly when no reload changes a cluster that its router can
    return**: from a configuration that is validated, along any sequence of successful reloads and of
    lookups, every state is consistent if and only if each reload returns only names that the first
    configuration has, with the same endpoints. -/
theorem routing_consistent_iff (regexes : Regexes Rx) (zones : Zones Tz) (start : Config)
    (gateway : GatewayState Rx) (uses : List Use) (s : Routing Rx) (hvalid : start.validate = .ok ())
    (hstart : GatewayState.new regexes start = .ok gateway)
    (hrun : run (use regexes zones) ⟨gateway, start⟩ uses = some s) :
    (∀ before after t, uses = before ++ after →
        run (use regexes zones) ⟨gateway, start⟩ before = some t → Consistent regexes zones t) ↔
      ∀ config, Use.reload config ∈ uses → Carried regexes zones start config := by
  have hsound := Config.sound_of_validate hvalid
  obtain ⟨router, hrouter, hgateway⟩ := bind_eq_ok.mp hstart
  cases hgateway
  let first : Routing Rx := ⟨⟨router, Clusters.new start.clusters, start⟩, start⟩
  have hstale : Stale start first := rfl
  have hfirst : Consistent regexes zones first :=
    (consistent_fresh_iff hsound hrouter rfl rfl rfl).mpr (carried_self hsound)
  have hmeets : Meets (use regexes zones) (fun _ u => CarriedUse regexes zones start u) first uses ↔
      ∀ before after t, uses = before ++ after → run (use regexes zones) first before = some t →
        Consistent regexes zones t :=
    meets_iff_always (fun _ _ _ hstale hstep => hstale.use hstep)
      (fun _ _ _ hstale hsafe hstep => hsafe.use_iff hsound hstale hstep) hstale hfirst hrun
  rw [← hmeets, meets_label_iff hrun]
  constructor
  · intro hall config hmem
    exact hall _ hmem
  · intro hall u hmem
    cases u with
    | reload config => exact hall config hmem
    | lookup l => trivial

end Runs

/-! ## Samples -/

/-- No patterns, and no timezones but one. -/
def noRegexes : Regexes Empty := ⟨fun _ => .error "unsupported", nofun⟩

/-- A clock that stands still. -/
def oneZone : Zones Unit := ⟨fun _ => some (), (), fun _ _ => ⟨.mon, 12, 0⟩⟩

/-- A configuration with one cluster and one route to it, for every message. -/
def oneRouteConfig (cluster : String) : Config where
  listeners := [{ name := "default", address := "0.0.0.0:2775" }]
  clusters := [{ name := cluster, endpoints := [⟨"smsc:2775", "user", "pass", "", 1⟩] }]
  routes := [{ name := "default", match_ := { pre := some "" }, cluster := some cluster }]

/-- The gateway state of it. -/
def oneRouteGateway (cluster : String) : GatewayState Empty where
  router := ⟨[⟨"default", { destination := some ⟨.any, none⟩ }, .single cluster, [], 0⟩],
    Clusters.new (oneRouteConfig cluster).clusters⟩
  clusters := Clusters.new (oneRouteConfig cluster).clusters
  config := oneRouteConfig cluster

/-- A reload with the same configuration, and a lookup after it. -/
theorem routing_consistent_after_same_reload :
    ∃ t, run (use noRegexes oneZone) ⟨oneRouteGateway "a", oneRouteConfig "a"⟩
        [.reload (oneRouteConfig "a"), .lookup ⟨0, { destination := "258" }⟩] = some t ∧
      Consistent noRegexes oneZone t := by
  refine ⟨_, rfl, ?_⟩
  refine (routing_consistent_iff noRegexes oneZone (oneRouteConfig "a") (oneRouteGateway "a")
    [.reload (oneRouteConfig "a"), .lookup ⟨0, { destination := "258" }⟩] _ rfl rfl rfl).mpr ?_ _ [] _
    (List.append_nil _).symm rfl
  intro config hmem
  rcases List.mem_cons.mp hmem with hsame | hrest
  · cases hsame
    exact carried_self (Config.sound_of_validate rfl)
  · cases List.mem_singleton.mp hrest

/-- The configuration is reloaded with another cluster: the router returns it, and the forwarders do not
    find it. -/
theorem routing_inconsistent_after_rename :
    (oneRouteConfig "a").validate = .ok () ∧
      GatewayState.new noRegexes (oneRouteConfig "a") = .ok (oneRouteGateway "a") ∧
      ∃ t, run (use noRegexes oneZone) ⟨oneRouteGateway "a", oneRouteConfig "a"⟩
        [.reload (oneRouteConfig "b")] = some t ∧ ¬ Consistent noRegexes oneZone t := by
  refine ⟨rfl, rfl, _, rfl, fun hconsistent => ?_⟩
  obtain ⟨cluster, hget, -⟩ := hconsistent "b" ⟨[], ⟨0, { destination := "258" }⟩, _, rfl,
    List.mem_cons_self⟩
  cases hget

end Smppd.Bootstrap
