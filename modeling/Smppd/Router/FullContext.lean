/-
  ROUTING IN THE PIPELINE: what `route_message` tells the router about a message.

  `route_message` looks a message up by destination and source.  The router would also match on the
  system id, the service type, the ESM class and the data coding of a message; a route that asks for one
  of these is never taken by the pipeline (`qualifies_pipeline_iff`), since a field that is not brought
  along does not match.

  `taken` is the place in the table of the route that a lookup takes; it decides the result and the
  counters that are moved on (`routeContext_congr`).  `route_message_full_context_iff` compares the place
  the pipeline takes with the one that the whole message would lead to.
-/
import Smppd.Pipeline.Processors
import Smppd.Router.Selection

set_option linter.unusedVariables false
set_option linter.dupNamespace false

namespace Smppd.Router

open Smppd.Store Smppd.Gateway Smppd.Bootstrap Smppd.Pipeline Smppd.Cluster Fallible Rank

variable {Rx Tz : Type}

/-! ## The two contexts of a message -/

/-- What `route_message` passes to `Router::route`. -/
def pipelineContext (e : MessageEnvelope) : MatchContext where
  destination := e.submitSm.destAddr
  source := some e.submitSm.sourceAddr

/-- All that a message brings along. -/
def fullContext (e : MessageEnvelope) : MatchContext where
  destination := e.submitSm.destAddr
  source := some e.submitSm.sourceAddr
  systemId := some e.systemId
  serviceType := some e.submitSm.serviceType
  esmClass := some e.submitSm.esmClass
  dataCoding := some e.submitSm.dataCoding

/-- The route asks for a field that `route_message` does not pass on. -/
def Restricted (match_ : RouteMatch) : Prop :=
  match_.systemId ≠ none ∨ match_.serviceType ≠ none ∨ match_.esmClass ≠ none ∨ match_.dataCoding ≠ none

section Contexts

variable {regexes : Regexes Rx} {zones : Zones Tz} {wall : SystemTime}

/-- **The pipeline sees the routes that are not restricted**, and of these exactly those the message
    qualifies for. -/
theorem qualifies_pipeline_iff {match_ : RouteMatch} {e : MessageEnvelope} :
    Qualifies regexes zones wall match_ (pipelineContext e) ↔
      Qualifies regexes zones wall match_ (fullContext e) ∧ ¬ Restricted match_ := by
  -- a condition on a field that is not there cannot be set
  have hunset : ∀ {α : Type} {cond : Option α}, (∀ c, cond = some c → none = some c) → cond = none := by
    intro α cond hcond
    cases cond with
    | none => rfl
    | some c => cases hcond c rfl
  constructor
  · intro h
    have hsystemId := hunset h.systemId
    have hserviceType := hunset h.serviceType
    have hesmClass := hunset h.esmClass
    have hdataCoding : match_.dataCoding = none := by
      refine hunset fun allowed hallowed => ?_
      obtain ⟨v, -, hv⟩ := h.dataCoding allowed hallowed
      cases hv
    refine ⟨⟨h.destination, h.source, h.senderId, ?_, ?_, ?_, ?_, h.timeWindow⟩, ?_⟩
    · rw [hsystemId]
      nofun
    · rw [hserviceType]
      nofun
    · rw [hesmClass]
      nofun
    · rw [hdataCoding]
      nofun
    · rintro (h | h | h | h)
      · exact h hsystemId
      · exact h hserviceType
      · exact h hesmClass
      · exact h hdataCoding
  · rintro ⟨h, hfree⟩
    have hset : ∀ {α : Type} {cond : Option α} {c : α}, cond = some c → cond ≠ none := by
      rintro α cond c rfl
      nofun
    refine ⟨h.destination, h.source, h.senderId, ?_, ?_, ?_, ?_, h.timeWindow⟩
    · exact fun c hc => absurd (Or.inl (hset hc)) hfree
    · exact fun c hc => absurd (Or.inr (Or.inl (hset hc))) hfree
    · exact fun c hc => absurd (Or.inr (Or.inr (Or.inl (hset hc)))) hfree
    · exact fun c hc => absurd (Or.inr (Or.inr (Or.inr (hset hc)))) hfree

end Contexts

/-! ## The route that is taken -/

section Taken

variable (regexes : Regexes Rx) (zones : Zones Tz) (wall : SystemTime)

/-- The place in the table of the route that a lookup takes. -/
def Router.taken (self : Router Rx) (ctx : MatchContext) : Option Nat :=
  self.routes.findIdx? fun route => route.matcher.matchesContext regexes zones wall ctx

/-- The lookup of `route_message`. -/
def lookupOf (router : Router Rx) (e : MessageEnvelope) : Option RouteResult × Router Rx :=
  router.route regexes zones wall e.submitSm.destAddr (some e.submitSm.sourceAddr) none

theorem routeAmong_congr {routes : List (Route Rx)} {ctx ctx' : MatchContext}
    (h : (routes.findIdx? fun route => route.matcher.matchesContext regexes zones wall ctx) =
      routes.findIdx? fun route => route.matcher.matchesContext regexes zones wall ctx') :
    routeAmong regexes zones wall ctx routes = routeAmong regexes zones wall ctx' routes := by
  induction routes with
  | nil => rfl
  | cons route routes ih =>
    rw [List.findIdx?_cons, List.findIdx?_cons] at h
    unfold routeAmong
    cases hm : route.matcher.matchesContext regexes zones wall ctx with
    | true =>
      cases hm' : route.matcher.matchesContext regexes zones wall ctx' with
      | true => rfl
      | false =>
        rw [hm, hm'] at h
        cases hrest : routes.findIdx? fun route => route.matcher.matchesContext regexes zones wall ctx' <;>
          · rw [hrest] at h
            cases h
    | false =>
      cases hm' : route.matcher.matchesContext regexes zones wall ctx' with
      | true =>
        rw [hm, hm'] at h
        cases hrest : routes.findIdx? fun route => route.matcher.matchesContext regexes zones wall ctx <;>
          · rw [hrest] at h
            cases h
      | false =>
        rw [hm, hm'] at h
        simp only [Bool.false_eq_true, if_false] at h ⊢
        rw [ih (Option.map_injective Nat.succ_injective h)]

/-- **The route taken decides the lookup**: the result and the counters. -/
theorem routeContext_congr {router : Router Rx} {ctx ctx' : MatchContext}
    (h : router.taken regexes zones wall ctx = router.taken regexes zones wall ctx') :
    router.routeContext regexes zones wall ctx = router.routeContext regexes zones wall ctx' := by
  unfold Router.routeContext
  rw [routeAmong_congr regexes zones wall h]

end Taken

section Compared

variable {regexes : Regexes Rx} {zones : Zones Tz} {wall : SystemTime}

/-- The places agree when the first route the whole message qualifies for is not restricted. -/
theorem findIdx?_pipeline_iff {configs : List RouteConfig} {routes : List (Route Rx)}
    (h : List.Forall₂ (Serves regexes) configs routes) (e : MessageEnvelope) :
    (routes.findIdx? fun route => route.matcher.matchesContext regexes zones wall (pipelineContext e)) =
        (routes.findIdx? fun route => route.matcher.matchesContext regexes zones wall (fullContext e)) ↔
      ∀ before config after, configs = before ++ config :: after →
        (∀ c ∈ before, ¬ Qualifies regexes zones wall c.match_ (fullContext e)) →
        Qualifies regexes zones wall config.match_ (fullContext e) → ¬ Restricted config.match_ := by
  induction h with
  | nil =>
    refine iff_of_true rfl fun before config after hl => ?_
    exact absurd hl.symm (List.append_ne_nil_of_right_ne_nil _ (List.cons_ne_nil _ _))
  | @cons config route configs routes hserves hrest ih =>
    have hfull : route.matcher.matchesContext regexes zones wall (fullContext e) = true ↔
        Qualifies regexes zones wall config.match_ (fullContext e) := matches_iff_qualifies hserves
    have hpart : route.matcher.matchesContext regexes zones wall (pipelineContext e) = true ↔
        Qualifies regexes zones wall config.match_ (pipelineContext e) := matches_iff_qualifies hserves
    rw [qualifies_pipeline_iff] at hpart
    rw [List.findIdx?_cons, List.findIdx?_cons]
    by_cases hq : Qualifies regexes zones wall config.match_ (fullContext e)
    · rw [hfull.mpr hq, if_pos rfl]
      by_cases hr : Restricted config.match_
      · -- the pipeline passes it over
        rw [if_neg fun hm => (hpart.mp hm).2 hr]
        refine iff_of_false (fun heq => ?_) fun hall => ?_
        · obtain ⟨n, -, hn⟩ := Option.map_eq_some_iff.mp heq
          exact Nat.succ_ne_zero n hn
        · exact hall [] config configs rfl (fun _ hc => absurd hc List.not_mem_nil) hq hr
      · rw [if_pos (hpart.mpr ⟨hq, hr⟩)]
        refine iff_of_true rfl fun before c after hl hbefore hqc => ?_
        cases before with
        | nil =>
          obtain ⟨rfl, -⟩ := List.cons.inj hl
          exact hr
        | cons b before =>
          obtain ⟨rfl, -⟩ := List.cons.inj hl
          exact absurd hq (hbefore config List.mem_cons_self)
    · rw [if_neg fun hm => hq (hpart.mp hm).1, if_neg fun hm => hq (hfull.mp hm)]
      rw [(Option.map_injective (f := (· + 1)) fun a b hab => Nat.succ.inj hab).eq_iff, ih]
      constructor
      · intro hall before c after hl hbefore hqc
        cases before with
        | nil =>
          obtain ⟨rfl, -⟩ := List.cons.inj hl
          exact absurd hqc hq
        | cons b before =>
          obtain ⟨rfl, rfl⟩ := List.cons.inj hl
          exact hall before c after rfl (fun d hd => hbefore d (List.mem_cons_of_mem _ hd)) hqc
      · rintro hall before c after rfl hbefore hqc
        exact hall (config :: before) c after rfl (List.forall_mem_cons.mpr ⟨hq, hbefore⟩) hqc

/-- The same of a router and its configuration. -/
theorem taken_pipeline_iff {configs : List RouteConfig} {router : Router Rx}
    (h : Tabled regexes configs router) (e : MessageEnvelope) :
    router.taken regexes zones wall (pipelineContext e) = router.taken regexes zones wall (fullContext e) ↔
      ∀ config, Picked regexes zones wall configs (fullContext e) config → ¬ Restricted config.match_ := by
  refine (findIdx?_pipeline_iff h e).trans ⟨fun hall config hpicked => ?_, fun hall => ?_⟩
  · obtain ⟨before, after, hl, hbefore, hq⟩ := earliest_iff_first.mp hpicked
    exact hall before config after hl hbefore hq
  · intro before config after hl hbefore hq
    exact hall config (earliest_iff_first.mpr ⟨before, after, hl, hbefore, hq⟩)

end Compared

/-! ## The body of `route_message` -/

/-- What `route_message` publishes about a lookup. -/
def announced (e : MessageEnvelope) : Option RouteResult → List Event
  | some result => [.messageRouted e result.routeName result.clusterName result.fallback]
  | none =>
    [.messageFailed e.messageId e.sessionId e.sequenceNumber (some 0x0B) "no route found" true,
      .responseReady (.failure e.sessionId e.sequenceNumber e.messageId.toText 0x0B)]

/-- `route_message` publishes what its lookup, the third call it makes, comes back with. -/
theorem exec_routeMessage {S : Type} [Storage S] (e : MessageEnvelope) (env : Nat → Env)
    (w : World S Event) :
    ((RouterProcessor.routeMessage e).exec handle env w).2.1.sent =
      w.sent ++ announced e (env 2).route := by
  unfold RouterProcessor.routeMessage publish
  simp only [Prog.request_bind, Prog.exec_call, handle]
  cases (env 2).route with
  | some result => rfl
  | none =>
    simp only [Prog.exec_call, handle]
    exact List.append_assoc _ [_] [_]

/-! ## The comparison -/

/-- The message takes the route that it would take if the router were told all of it; so the lookup, the
    counters it moves on and what is published are those of the whole message. -/
structure RoutedInFull (regexes : Regexes Rx) (zones : Zones Tz) (wall : SystemTime) (router : Router Rx)
    (e : MessageEnvelope) : Prop where
  /-- The place in the table. -/
  taken : router.taken regexes zones wall (pipelineContext e) =
    router.taken regexes zones wall (fullContext e)
  /-- The result, and the counters. -/
  lookup : lookupOf regexes zones wall router e = router.routeContext regexes zones wall (fullContext e)
  /-- The events, when the third call of the body is answered by this router. -/
  published : ∀ (S : Type) [Storage S] (env : Nat → Env) (w : World S Event),
    (env 2).route = (lookupOf regexes zones wall router e).1 →
    ((RouterProcessor.routeMessage e).exec handle env w).2.1.sent =
      w.sent ++ announced e (router.routeContext regexes zones wall (fullContext e)).1

/-- **The pipeline routes on the whole message** exactly when the route picked for the whole message is
    not restricted by system id, service type, ESM class or data coding. -/
theorem route_message_full_context_iff {regexes : Regexes Rx} {configs : List RouteConfig}
    {clusters : Clusters} {router : Router Rx}
    (h : Router.new regexes configs clusters = .ok router) (zones : Zones Tz) (lookups : List Lookup)
    (wall : SystemTime) (e : MessageEnvelope) :
    RoutedInFull regexes zones wall (router.serve regexes zones lookups) e ↔
      ∀ config, Picked regexes zones wall configs (fullContext e) config → ¬ Restricted config.match_ := by
  rw [← taken_pipeline_iff ((tabled_new h).serve lookups)]
  refine ⟨RoutedInFull.taken, fun htaken => ?_⟩
  have hlookup : lookupOf regexes zones wall (router.serve regexes zones lookups) e =
      (router.serve regexes zones lookups).routeContext regexes zones wall (fullContext e) :=
    routeContext_congr regexes zones wall htaken
  refine ⟨htaken, hlookup, fun S _ env w hroute => ?_⟩
  rw [exec_routeMessage, hroute, hlookup]

/-- A message of the client "alice". -/
def aliceEnvelope : MessageEnvelope where
  messageId := ⟨0⟩
  sessionId := ⟨0⟩
  sequenceNumber := 1
  systemId := "alice"
  submitSm := { sourceAddr := "100", destAddr := "258", shortMessage := [] }
  receivedAt := 0

/-- A route of its own for one client, before the route for everybody. -/
def clientRoutes (systemId : String) : List RouteConfig :=
  [{ name := "client", match_ := { systemId := some systemId }, cluster := some "premium" },
    { name := "default", match_ := { pre := some "" }, cluster := some "bulk", priority := 10 }]

/-- The route of another client does not get in the way. -/
theorem route_message_full_context_other_client :
    ∃ router, Router.new literalOnly (clientRoutes "bob") ∅ = .ok router ∧
      RoutedInFull literalOnly noon 0 router aliceEnvelope := by
  have hnew : Router.new literalOnly (clientRoutes "bob") ∅ = .ok _ := rfl
  refine ⟨_, hnew, (route_message_full_context_iff hnew noon [] 0 aliceEnvelope).mpr
    fun config hpicked => ?_⟩
  rcases List.mem_cons.mp hpicked.mem with rfl | hmem
  · exact absurd (hpicked.holds.systemId "bob" rfl) (by decide)
  · obtain rfl := List.mem_singleton.mp hmem
    rintro (h | h | h | h) <;> exact h rfl

/-- The client's own route is passed over: its message goes where everybody's goes. -/
theorem route_message_passes_over_client_route :
    ∃ router, Router.new literalOnly (clientRoutes "alice") ∅ = .ok router ∧
      ((router.routeContext literalOnly noon 0 (fullContext aliceEnvelope)).1.map RouteResult.clusterName =
        some "premium") ∧
      ((lookupOf literalOnly noon 0 router aliceEnvelope).1.map RouteResult.clusterName = some "bulk") ∧
      ¬ RoutedInFull literalOnly noon 0 router aliceEnvelope := by
  refine ⟨_, rfl, rfl, rfl, fun h => ?_⟩
  exact absurd h.taken (by decide)

end Smppd.Router
