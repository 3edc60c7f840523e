/-
  SELECTION: which route a message takes, read off the configuration.

  `Qualifies` says of a route's rules and a message that the message meets all of them, with no matcher
  and no compiled table in sight; of the routes a message qualifies for, `Picked` is the one of least
  priority number that stands first in the configuration.  The bridge to the router is in two steps:

  * `matches_iff_qualifies` — a compiled matcher accepts what qualifies;
  * `Tabled` — the table of a router is the sorted configuration, compiled, up to the counters of its
    splits; a lookup leaves it so.

  Then `route_context_selects_iff`: a lookup does as specified except where the weights of the picked
  route's split, which are added up in `u32`, come to a multiple of 2^32 other than zero.  And for
  configurations that have been validated, `validated_routes_iff`: what the validator leaves open is that
  weights may overflow and that a split may have no weight at all.
-/
import Smppd.Lib.Rank
import Smppd.Config.Loader
import Smppd.Router.Router

set_option linter.unusedVariables false
set_option linter.dupNamespace false

namespace Smppd.Router

open Smppd.Store Smppd.Gateway Smppd.Cluster Fallible Rank

variable {Rx Tz : Type}

/-! ## What the rules of a route mean -/

section Meaning

variable (regexes : Regexes Rx) (zones : Zones Tz) (wall : SystemTime)

/-- The pattern compiles and matches. -/
def PatternHolds (pattern value : String) : Prop :=
  ∃ rx, regexes.compile pattern = .ok rx ∧ regexes.isMatch rx value = true

/-- The block asks for something. -/
def Restricts (cond : MatchCondition) : Prop :=
  cond.any = some true ∨ cond.exact ≠ none ∨ cond.regex ≠ none ∨ cond.pre ≠ none

/-- What a condition block means: its flag, or else its exact value, its regex, its prefix. -/
def Accepts (cond : MatchCondition) (value : String) : Prop :=
  cond.any = some true ∨
    match cond.exact, cond.regex, cond.pre with
    | some text, _, _ => value = text
    | none, some pattern, _ => PatternHolds regexes pattern value
    | none, none, some text => text.toList <+: value.toList
    | none, none, none => True

/-- What the rules ask of the destination. -/
def DestinationHolds (match_ : RouteMatch) (destination : String) : Prop :=
  match match_.destination, match_.pre, match_.regex with
  | some cond, _, _ => Accepts regexes cond destination
  | none, some text, _ => text.toList <+: destination.toList
  | none, none, some pattern => PatternHolds regexes pattern destination
  | none, none, none => True

/-- What a block asks of a field that may be absent. -/
def FieldHolds (block : Option MatchCondition) (value : Option String) : Prop :=
  ∀ cond, block = some cond → Restricts cond → ∃ v, value = some v ∧ Accepts regexes cond v

/-- The message meets every rule of the route. -/
structure Qualifies (match_ : RouteMatch) (ctx : MatchContext) : Prop where
  destination : DestinationHolds regexes match_ ctx.destination
  source : FieldHolds regexes match_.source ctx.source
  senderId : FieldHolds regexes match_.senderId ctx.senderId
  systemId : ∀ expected, match_.systemId = some expected → ctx.systemId = some expected
  serviceType : ∀ expected, match_.serviceType = some expected → ctx.serviceType = some expected
  esmClass : ∀ expected, match_.esmClass = some expected → ctx.esmClass = some expected
  dataCoding : ∀ allowed, match_.dataCoding = some allowed →
    ∃ actual ∈ allowed, ctx.dataCoding = some actual
  timeWindow : ∀ window, match_.timeWindow = some window →
    timeWindowMatches zones wall window = true

/-- The route a message should take: of those it qualifies for, the one of least priority number, and
    among equals the first in the configuration. -/
def Picked (configs : List RouteConfig) (ctx : MatchContext) (config : RouteConfig) : Prop :=
  Earliest (fun c => Qualifies regexes zones wall c.match_ ctx) RouteConfig.priority configs config

end Meaning

/-! ## A compiled matcher accepts what qualifies -/

section Matching

variable {regexes : Regexes Rx}

/-- What a kind of matcher means. -/
def MatcherKind.Holds (regexes : Regexes Rx) (kind : MatcherKind) (value : String) : Prop :=
  match kind with
  | .any => True
  | .pre text => text.toList <+: value.toList
  | .regex pattern => PatternHolds regexes pattern value
  | .exact text => value = text

theorem compileKind_matches {kind : MatcherKind} {m : CompiledMatcher Rx}
    (h : compileKind regexes kind = .ok m) (value : String) :
    m.matches regexes value = true ↔ kind.Holds regexes value := by
  cases kind with
  | any =>
    cases h
    exact iff_of_true rfl trivial
  | pre text =>
    cases h
    exact List.isPrefixOf_iff_prefix
  | exact text =>
    cases h
    exact decide_eq_true_iff
  | regex pattern =>
    simp only [compileKind, CompiledMatcher.new] at h
    unfold MatcherKind.Holds PatternHolds
    cases hrx : regexes.compile pattern with
    | error e =>
      rw [hrx] at h
      cases h
    | ok rx =>
      rw [hrx] at h
      cases h
      simp only [CompiledMatcher.matches, hrx, Option.map_some, Option.getD_some, Except.ok.injEq,
        exists_eq_left']

theorem holds_ofPrefix {text value : String} :
    (MatcherKind.ofPrefix text).Holds regexes value ↔ text.toList <+: value.toList := by
  unfold MatcherKind.ofPrefix
  split
  · rename_i hempty
    rw [String.isEmpty_iff.mp hempty]
    exact iff_of_true trivial List.nil_prefix
  · exact Iff.rfl

/-- The matcher of a block means what the block means, and there is one if the block asks for
    something. -/
theorem fromCondition_spec (regexes : Regexes Rx) (cond : MatchCondition) :
    match MatcherKind.fromCondition cond with
    | some kind => Restricts cond ∧ ∀ value, kind.Holds regexes value ↔ Accepts regexes cond value
    | none => ¬ Restricts cond ∧ ∀ value, Accepts regexes cond value := by
  unfold MatcherKind.fromCondition
  by_cases hany : cond.any = some true
  · rw [if_pos hany]
    exact ⟨Or.inl hany, fun value => iff_of_true trivial (Or.inl hany)⟩
  · rw [if_neg hany]
    unfold Restricts Accepts
    cases cond.exact with
    | some text =>
      exact ⟨Or.inr (Or.inl (Option.some_ne_none _)), fun value => (or_iff_right hany).symm⟩
    | none =>
      cases cond.regex with
      | some pattern =>
        exact ⟨Or.inr (Or.inr (Or.inl (Option.some_ne_none _))), fun value => (or_iff_right hany).symm⟩
      | none =>
        cases cond.pre with
        | some text =>
          refine ⟨Or.inr (Or.inr (Or.inr (Option.some_ne_none _))), fun value => ?_⟩
          exact holds_ofPrefix.trans (or_iff_right hany).symm
        | none =>
          refine ⟨fun h => ?_, fun value => Or.inr trivial⟩
          rcases h with h | h | h | h
          · exact hany h
          · exact h rfl
          · exact h rfl
          · exact h rfl

/-- A matcher that is optional compiles to the matcher of its kind, if it has one. -/
theorem compileOptional_all {kind : Option MatcherKind} {m : Option (CompiledMatcher Rx)}
    (h : compileOptional regexes kind = .ok m) {P : CompiledMatcher Rx → Prop} {Q : MatcherKind → Prop}
    (hPQ : ∀ k m', compileKind regexes k = .ok m' → (P m' ↔ Q k)) :
    (∀ m', m = some m' → P m') ↔ ∀ k, kind = some k → Q k := by
  cases kind with
  | none =>
    cases h
    exact iff_of_true nofun nofun
  | some k =>
    obtain ⟨m', hm', heq⟩ := bind_eq_ok.mp h
    cases heq
    simp only [Option.some.injEq, forall_eq']
    exact hPQ k m' hm'

theorem demanded_eq_true {α β : Type} {test : α → β → Bool} {cond : Option α} {value : Option β} :
    demanded test cond value = true ↔ ∀ c, cond = some c → ∃ v, value = some v ∧ test c v = true := by
  cases cond with
  | none => exact iff_of_true rfl nofun
  | some c =>
    cases value with
    | none => exact iff_of_false Bool.false_ne_true fun h => by obtain ⟨v, hv, -⟩ := h c rfl; cases hv
    | some v => simp only [demanded, Option.some.injEq, forall_eq', exists_eq_left']

/-- The condition on the destination. -/
theorem destination_holds {match_ : RouteMatch} {m : Option (CompiledMatcher Rx)}
    (h : compileOptional regexes (destinationKind match_) = .ok m) (destination : String) :
    (m.all fun m => m.matches regexes destination) = true ↔
      DestinationHolds regexes match_ destination := by
  rw [Option.all_eq_true, compileOptional_all h fun k m' hk => compileKind_matches hk destination]
  unfold destinationKind DestinationHolds
  cases match_.destination with
  | some cond =>
    have hspec := fromCondition_spec regexes cond
    cases hkind : MatcherKind.fromCondition cond with
    | some kind =>
      rw [hkind] at hspec
      simp only [hkind, Option.some.injEq, forall_eq']
      exact hspec.2 destination
    | none =>
      rw [hkind] at hspec
      simp only [hkind]
      exact iff_of_true nofun (hspec.2 destination)
  | none =>
    cases match_.pre with
    | some text =>
      simp only [Option.some.injEq, forall_eq']
      exact holds_ofPrefix
    | none =>
      cases match_.regex with
      | some pattern =>
        simp only [Option.some.injEq, forall_eq']
        exact Iff.rfl
      | none => exact iff_of_true nofun trivial

/-- The condition on a field that may be absent. -/
theorem field_holds {block : Option MatchCondition} {m : Option (CompiledMatcher Rx)}
    (h : compileOptional regexes (block.bind MatcherKind.fromCondition) = .ok m)
    (value : Option String) :
    demanded (fun m value => m.matches regexes value) m value = true ↔ FieldHolds regexes block value := by
  rw [demanded_eq_true]
  refine (compileOptional_all h (Q := fun k => ∃ v, value = some v ∧ k.Holds regexes v)
    fun k m' hk => exists_congr fun v => and_congr_right fun _ => compileKind_matches hk v).trans ?_
  unfold FieldHolds
  cases block with
  | none => exact iff_of_true nofun nofun
  | some cond =>
    have hspec := fromCondition_spec regexes cond
    simp only [Option.bind_some, Option.some.injEq, forall_eq']
    cases hkind : MatcherKind.fromCondition cond with
    | some kind =>
      rw [hkind] at hspec
      simp only [Option.some.injEq, forall_eq', hspec.1, forall_const, hspec.2]
    | none =>
      rw [hkind] at hspec
      exact iff_of_true nofun fun hrestricts => absurd hrestricts hspec.1

end Matching

/-! ## The table of a router -/

/-- The target as it was compiled: the counter of a split back at zero. -/
def RouteTarget.reset : RouteTarget → RouteTarget
  | .single cluster => .single cluster
  | .split s => .split { s with counter := 0 }

/-- The route is the compiled one, up to the counter of its split. -/
def Serves (regexes : Regexes Rx) (config : RouteConfig) (route : Route Rx) : Prop :=
  compileRoute regexes config = .ok { route with target := route.target.reset }

/-- The table is the sorted configuration, compiled. -/
def Tabled (regexes : Regexes Rx) (configs : List RouteConfig) (router : Router Rx) : Prop :=
  List.Forall₂ (Serves regexes) (configs.insertionSort fun a b => a.priority ≤ b.priority) router.routes

theorem RouteTarget.reset_select (target : RouteTarget) : target.select.2.reset = target.reset := by
  cases target with
  | single cluster => rfl
  | split s =>
    show RouteTarget.reset (.split s.select.2) = _
    unfold WeightedSplit.select
    split <;> rfl

section Table

variable {regexes : Regexes Rx} {zones : Zones Tz} {wall : SystemTime} {ctx : MatchContext}

/-- What a route that compiles is made of. -/
theorem compileRoute_eq_ok {config : RouteConfig} {route : Route Rx}
    (h : compileRoute regexes config = .ok route) :
    compileOptional regexes (destinationKind config.match_) = .ok route.matcher.destination ∧
      compileOptional regexes (config.match_.source.bind MatcherKind.fromCondition) =
        .ok route.matcher.source ∧
      compileOptional regexes (config.match_.senderId.bind MatcherKind.fromCondition) =
        .ok route.matcher.senderId ∧
      compileTarget config = .ok route.target ∧
      route = {
        name := config.name
        matcher := {
          destination := route.matcher.destination
          source := route.matcher.source
          senderId := route.matcher.senderId
          systemId := config.match_.systemId
          serviceType := config.match_.serviceType
          esmClass := config.match_.esmClass
          dataCoding := config.match_.dataCoding
          timeWindow := config.match_.timeWindow }
        target := route.target
        fallback := config.fallback.getD []
        priority := config.priority } := by
  unfold compileRoute at h
  simp only [bind_eq_ok] at h
  obtain ⟨d, hd, s, hs, i, hi, t, ht, hroute⟩ := h
  cases hroute
  exact ⟨hd, hs, hi, ht, rfl⟩

/-- A field that has to have a given value, if one is given. -/
theorem demanded_eq {α : Type} [DecidableEq α] {cond value : Option α} :
    demanded (fun expected actual => decide (actual = expected)) cond value = true ↔
      ∀ expected, cond = some expected → value = some expected := by
  rw [demanded_eq_true]
  refine forall_congr' fun c => imp_congr_right fun _ => ?_
  simp only [decide_eq_true_eq, exists_eq_right]

/-- **A compiled matcher accepts what qualifies.** -/
theorem matches_iff_qualifies {config : RouteConfig} {route : Route Rx} (h : Serves regexes config route) :
    route.matcher.matchesContext regexes zones wall ctx = true ↔
      Qualifies regexes zones wall config.match_ ctx := by
  obtain ⟨hd, hs, hi, -, hroute⟩ := compileRoute_eq_ok h
  have hmatcher := congrArg Route.matcher hroute
  simp only at hmatcher hd hs hi
  rw [hmatcher]
  unfold Matcher.matchesContext
  simp only [Bool.and_eq_true, and_assoc]
  rw [destination_holds hd, field_holds hs, field_holds hi, demanded_eq, demanded_eq, demanded_eq,
    demanded_eq_true, Option.all_eq_true]
  have hcoding : (∀ allowed, config.match_.dataCoding = some allowed →
      ∃ v, ctx.dataCoding = some v ∧ allowed.contains v = true) ↔
      ∀ allowed, config.match_.dataCoding = some allowed → ∃ v ∈ allowed, ctx.dataCoding = some v := by
    refine forall_congr' fun allowed => imp_congr_right fun _ => exists_congr fun v => ?_
    rw [List.contains_iff_mem]
    exact and_comm
  rw [hcoding]
  constructor
  · rintro ⟨h₁, h₂, h₃, h₄, h₅, h₆, h₇, h₈⟩
    exact ⟨h₁, h₂, h₃, h₄, h₅, h₆, h₇, h₈⟩
  · rintro ⟨h₁, h₂, h₃, h₄, h₅, h₆, h₇, h₈⟩
    exact ⟨h₁, h₂, h₃, h₄, h₅, h₆, h₇, h₈⟩

theorem compileTarget_reset {config : RouteConfig} {target : RouteTarget}
    (h : compileTarget config = .ok target) : target.reset = target := by
  unfold compileTarget at h
  split at h
  · cases h
    rfl
  · cases h
    rfl
  · cases h

/-- A new router has the table of its configuration. -/
theorem tabled_new {configs : List RouteConfig} {clusters : Clusters} {router : Router Rx}
    (h : Router.new regexes configs clusters = .ok router) : Tabled regexes configs router := by
  obtain ⟨routes, hroutes, hrouter⟩ := bind_eq_ok.mp h
  cases hrouter
  refine forall₂_insertionSort (fun config route hserves => ?_)
    ((forall₂_of_collect hroutes).imp fun config route hcompile => ?_)
  · exact (congrArg Route.priority (compileRoute_eq_ok hserves).2.2.2.2).symm
  · unfold Serves
    rw [compileTarget_reset (compileRoute_eq_ok hcompile).2.2.2.1]
    exact hcompile

/-- A lookup leaves the table, up to the counters. -/
theorem routeAmong_serves {configs : List RouteConfig} {routes : List (Route Rx)}
    (h : List.Forall₂ (Serves regexes) configs routes) :
    List.Forall₂ (Serves regexes) configs (routeAmong regexes zones wall ctx routes).2 := by
  induction h with
  | nil => exact .nil
  | @cons config route configs routes hserves hrest ih =>
    unfold routeAmong
    split
    · refine .cons ?_ hrest
      unfold Serves
      rw [RouteTarget.reset_select]
      exact hserves
    · exact .cons hserves ih

theorem Tabled.serve {configs : List RouteConfig} {router : Router Rx} (h : Tabled regexes configs router)
    (lookups : List Lookup) : Tabled regexes configs (router.serve regexes zones lookups) := by
  induction lookups generalizing router with
  | nil => exact h
  | cons lookup lookups ih => exact ih (routeAmong_serves h)

/-- What the loop of `route_context` finds: the first route that the message qualifies for. -/
theorem routeAmong_first {configs : List RouteConfig} {routes : List (Route Rx)}
    (h : List.Forall₂ (Serves regexes) configs routes) :
    ((∀ config ∈ configs, ¬ Qualifies regexes zones wall config.match_ ctx) ∧
        (routeAmong regexes zones wall ctx routes).1 = none) ∨
      ∃ before config after route, configs = before ++ config :: after ∧
        (∀ c ∈ before, ¬ Qualifies regexes zones wall c.match_ ctx) ∧
        Qualifies regexes zones wall config.match_ ctx ∧ Serves regexes config route ∧
        (routeAmong regexes zones wall ctx routes).1 =
          route.target.select.1.map fun name => ⟨route.name, name, route.fallback⟩ := by
  induction h with
  | nil => exact Or.inl ⟨fun _ hc => absurd hc List.not_mem_nil, rfl⟩
  | @cons config route configs routes hserves hrest ih =>
    unfold routeAmong
    by_cases hq : Qualifies regexes zones wall config.match_ ctx
    · rw [if_pos ((matches_iff_qualifies hserves).mpr hq)]
      exact Or.inr ⟨[], config, configs, route, rfl, fun _ hc => absurd hc List.not_mem_nil, hq,
        hserves, rfl⟩
    · rw [if_neg fun hmatch => hq ((matches_iff_qualifies hserves).mp hmatch)]
      rcases ih with ⟨hnone, hresult⟩ | ⟨before, c, after, r, rfl, hbefore, hqc, hserves', hresult⟩
      · exact Or.inl ⟨List.forall_mem_cons.mpr ⟨hq, hnone⟩, hresult⟩
      · exact Or.inr ⟨config :: before, c, after, r, rfl, List.forall_mem_cons.mpr ⟨hq, hbefore⟩, hqc,
          hserves', hresult⟩

/-- **What a lookup does**: nothing when the message qualifies for no route, and otherwise it draws from
    the target of the route picked. -/
theorem routeContext_picked {configs : List RouteConfig} {router : Router Rx}
    (h : Tabled regexes configs router) :
    ((∀ config ∈ configs, ¬ Qualifies regexes zones wall config.match_ ctx) ∧
        (router.routeContext regexes zones wall ctx).1 = none) ∨
      ∃ config route, Picked regexes zones wall configs ctx config ∧ Serves regexes config route ∧
        (router.routeContext regexes zones wall ctx).1 =
          route.target.select.1.map fun name => ⟨route.name, name, route.fallback⟩ := by
  rcases routeAmong_first h with ⟨hnone, hresult⟩ | ⟨before, c, after, route, hl, hbefore, hq, hs, hresult⟩
  · exact Or.inl ⟨fun config hc => hnone config ((List.mem_insertionSort _).mpr hc), hresult⟩
  · exact Or.inr ⟨c, route, earliest_iff_first.mpr ⟨before, after, hl, hbefore, hq⟩, hs, hresult⟩

end Table

/-! ## Weights -/

/-- The weights of a split together. -/
def totalWeight (splits : List TrafficSplit) : Nat := (splits.map fun s => s.weight.toNat).sum

theorem accumulate_snd (cumulative : UInt32) (splits : List TrafficSplit) :
    (WeightedSplit.accumulate cumulative splits).2.toNat =
      (cumulative.toNat + totalWeight splits) % 2 ^ 32 := by
  induction splits generalizing cumulative with
  | nil =>
    show cumulative.toNat = (cumulative.toNat + 0) % 2 ^ 32
    rw [Nat.add_zero, Nat.mod_eq_of_lt cumulative.toNat_lt]
  | cons split splits ih =>
    refine (ih (cumulative + split.weight)).trans ?_
    rw [UInt32.toNat_add, Nat.mod_add_mod, Nat.add_assoc]
    rfl

/-- A point that no entry lies beyond is not below the total either. -/
theorem not_lt_accumulate {cumulative point : UInt32} {splits : List TrafficSplit}
    (hpoint : ¬ point < cumulative)
    (h : ∀ entry ∈ (WeightedSplit.accumulate cumulative splits).1, ¬ point < entry.2) :
    ¬ point < (WeightedSplit.accumulate cumulative splits).2 := by
  induction splits generalizing cumulative with
  | nil => exact hpoint
  | cons split splits ih =>
    obtain ⟨hfirst, hrest⟩ := List.forall_mem_cons.mp h
    exact ih hfirst hrest

/-- The first entry beyond the point has a weight. -/
theorem accumulate_find? {cumulative point : UInt32} {splits : List TrafficSplit}
    {entry : String × UInt32} (hpoint : ¬ point < cumulative)
    (h : (WeightedSplit.accumulate cumulative splits).1.find? (fun c => point < c.2) = some entry) :
    ∃ s ∈ splits, s.cluster = entry.1 ∧ 0 < s.weight := by
  induction splits generalizing cumulative with
  | nil => cases h
  | cons split splits ih =>
    rcases List.find?_cons_eq_some.mp h with ⟨hlt, rfl⟩ | ⟨hlt, hrest⟩
    · refine ⟨split, List.mem_cons_self, rfl, UInt32.pos_iff_ne_zero.mpr fun hzero => hpoint ?_⟩
      -- an entry without weight lies where the one before it does
      rw [decide_eq_true_eq, hzero, UInt32.add_zero] at hlt
      exact hlt
    · have hnot : ¬ point < cumulative + split.weight := by
        intro hlt'
        rw [decide_eq_true hlt'] at hlt
        cases hlt
      obtain ⟨s, hs, hweight⟩ := ih hnot hrest
      exact ⟨s, List.mem_cons_of_mem _ hs, hweight⟩

/-- **What a split draws**: an entry that has a weight, unless the total is zero. -/
theorem select_spec_of_reset {splits : List TrafficSplit} {s : WeightedSplit}
    (h : { s with counter := 0 } = WeightedSplit.new splits) :
    (s.select.1 = none ↔ 2 ^ 32 ∣ totalWeight splits) ∧
      ∀ name, s.select.1 = some name → ∃ t ∈ splits, t.cluster = name ∧ 0 < t.weight := by
  have hclusters : s.clusters = (WeightedSplit.accumulate 0 splits).1 := congrArg WeightedSplit.clusters h
  have htotal : s.totalWeight = (WeightedSplit.accumulate 0 splits).2 := congrArg WeightedSplit.totalWeight h
  have hmod : s.totalWeight.toNat = totalWeight splits % 2 ^ 32 := by
    rw [htotal, accumulate_snd, UInt32.toNat_zero, Nat.zero_add]
  have hzero : s.totalWeight = 0 ↔ 2 ^ 32 ∣ totalWeight splits := by
    rw [Nat.dvd_iff_mod_eq_zero, ← hmod, ← UInt32.toNat_inj]
    rfl
  -- nothing lies below zero, which is where the entries start
  have hstart : ∀ point : UInt32, ¬ point < 0 := fun point => UInt32.not_lt_zero
  unfold WeightedSplit.select
  by_cases hnone : s.clusters.isEmpty = true ∨ s.totalWeight = 0
  · rw [if_pos hnone]
    refine ⟨iff_of_true rfl (hzero.mp ?_), nofun⟩
    rcases hnone with hempty | hnone
    · cases splits with
      | nil => exact htotal
      | cons split splits =>
        rw [hclusters] at hempty
        cases hempty
    · exact hnone
  · rw [if_neg hnone]
    rw [not_or] at hnone
    have hpos : 0 < s.totalWeight := UInt32.pos_iff_ne_zero.mpr hnone.2
    obtain ⟨entry, hfind⟩ : ∃ entry, s.clusters.find?
        (fun c => s.counter.toUInt32 % s.totalWeight < c.2) = some entry := by
      rw [← Option.isSome_iff_exists, Option.isSome_iff_ne_none]
      intro hmissing
      rw [List.find?_eq_none, hclusters] at hmissing
      have hbeyond : ¬ s.counter.toUInt32 % s.totalWeight < (WeightedSplit.accumulate 0 splits).2 :=
        not_lt_accumulate (hstart _) fun entry hentry hlt => hmissing entry hentry (decide_eq_true hlt)
      rw [← htotal] at hbeyond
      exact hbeyond (UInt32.mod_lt _ hpos)
    simp only [hfind, Option.some_or, Option.map_some, Option.some.injEq]
    refine ⟨iff_of_false nofun fun hdvd => hnone.2 (hzero.mpr hdvd), ?_⟩
    rintro name rfl
    rw [hclusters] at hfind
    exact accumulate_find? (hstart _) hfind

/-! ## The specification of a lookup -/

section Specified

variable (regexes : Regexes Rx) (zones : Zones Tz) (wall : SystemTime)

/-- The cluster is the single target of the route, or an entry of its split that has a weight. -/
def LeadsTo (config : RouteConfig) (cluster : String) : Prop :=
  match config.split with
  | some splits => ∃ s ∈ splits, s.cluster = cluster ∧ 0 < s.weight
  | none => config.cluster = some cluster

/-- The result of a lookup is the one the configuration asks for. -/
structure AsSpecified (configs : List RouteConfig) (ctx : MatchContext) (result : Option RouteResult) :
    Prop where
  /-- A result is that of the route picked. -/
  found : ∀ r, result = some r → ∃ config, Picked regexes zones wall configs ctx config ∧
    r.routeName = config.name ∧ r.fallback = config.fallback.getD [] ∧ LeadsTo config r.clusterName
  /-- There is none exactly when no route qualifies or the split of the route picked has no weight. -/
  none_iff : result = none ↔
    (∀ config ∈ configs, ¬ Qualifies regexes zones wall config.match_ ctx) ∨
      ∃ config splits, Picked regexes zones wall configs ctx config ∧ config.split = some splits ∧
        totalWeight splits = 0

end Specified

section Spec

variable {regexes : Regexes Rx} {zones : Zones Tz} {wall : SystemTime} {ctx : MatchContext}

/-- What a served target draws. -/
theorem target_select {config : RouteConfig} {target : RouteTarget}
    (h : compileTarget config = .ok target.reset) :
    (target.select.1 = none ↔ ∃ splits, config.split = some splits ∧ 2 ^ 32 ∣ totalWeight splits) ∧
      ∀ name, target.select.1 = some name → LeadsTo config name := by
  unfold compileTarget at h
  unfold LeadsTo
  cases hsplit : config.split with
  | some splits =>
    rw [hsplit] at h
    cases target with
    | single cluster => cases h
    | split s =>
      obtain ⟨hnone, hsome⟩ := select_spec_of_reset (RouteTarget.split.inj (Except.ok.inj h)).symm
      simp only [Option.some.injEq, exists_eq_left']
      exact ⟨hnone, hsome⟩
  | none =>
    rw [hsplit] at h
    cases hcluster : config.cluster with
    | none =>
      rw [hcluster] at h
      cases h
    | some cluster =>
      rw [hcluster] at h
      cases target with
      | split s => cases h
      | single c =>
        cases h
        refine ⟨iff_of_false nofun ?_, fun name hname => hname⟩
        rintro ⟨splits, hnot, -⟩
        cases hnot

/-- What a table yields is as specified exactly when the weights of the picked route's split do not come to
    a multiple of 2^32 other than zero. -/
theorem asSpecified_iff {configs : List RouteConfig} {router : Router Rx} (h : Tabled regexes configs router)
    (wall : SystemTime) (ctx : MatchContext) :
    AsSpecified regexes zones wall configs ctx (router.routeContext regexes zones wall ctx).1 ↔
      ∀ config splits, Picked regexes zones wall configs ctx config → config.split = some splits →
        2 ^ 32 ∣ totalWeight splits → totalWeight splits = 0 := by
  rcases routeContext_picked h with
    ⟨hnone, hresult⟩ | ⟨config, route, hpicked, hserves, hresult⟩
  · -- nothing qualifies
    rw [hresult]
    refine iff_of_true ⟨nofun, iff_of_true rfl (Or.inl hnone)⟩ fun config splits hpicked => ?_
    exact absurd hpicked.holds (hnone config hpicked.mem)
  · rw [hresult]
    obtain ⟨-, -, -, htarget, hroute⟩ := compileRoute_eq_ok hserves
    have hname : route.name = config.name := congrArg Route.name hroute
    have hfallback : route.fallback = config.fallback.getD [] := congrArg Route.fallback hroute
    obtain ⟨hnone, hsome⟩ := target_select htarget
    have hqualifies : ¬ ∀ c ∈ configs, ¬ Qualifies regexes zones wall c.match_ ctx :=
      fun hall => hall config hpicked.mem hpicked.holds
    constructor
    · intro hspec c splits hpicked' hsplit hdvd
      obtain rfl := hpicked.unique hpicked'
      have hmissing := hspec.none_iff.mp (Option.map_eq_none_iff.mpr (hnone.mpr ⟨splits, hsplit, hdvd⟩))
      obtain ⟨c, splits', hpicked'', hsplit', hzero⟩ := hmissing.resolve_left hqualifies
      obtain rfl := hpicked.unique hpicked''
      rw [hsplit] at hsplit'
      cases hsplit'
      exact hzero
    · intro hexact
      refine ⟨fun r hr => ?_, ?_⟩
      · obtain ⟨name, hname', rfl⟩ := Option.map_eq_some_iff.mp hr
        exact ⟨config, hpicked, hname, hfallback, hsome name hname'⟩
      · rw [Option.map_eq_none_iff, hnone, or_iff_right hqualifies]
        constructor
        · rintro ⟨splits, hsplit, hdvd⟩
          exact ⟨config, splits, hpicked, hsplit, hexact config splits hpicked hsplit hdvd⟩
        · rintro ⟨c, splits, hpicked', hsplit, hzero⟩
          obtain rfl := hpicked.unique hpicked'
          exact ⟨splits, hsplit, hzero ▸ Nat.dvd_zero _⟩

/-- **Selection is as specified** exactly when the weights of the picked route's split do not come to a
    multiple of 2^32 other than zero: on every configuration that compiles, after any lookups. -/
theorem route_context_selects_iff {configs : List RouteConfig} {clusters : Clusters} {router : Router Rx}
    (h : Router.new regexes configs clusters = .ok router) (lookups : List Lookup) (wall : SystemTime)
    (ctx : MatchContext) :
    AsSpecified regexes zones wall configs ctx
        ((router.serve regexes zones lookups).routeContext regexes zones wall ctx).1 ↔
      ∀ config splits, Picked regexes zones wall configs ctx config → config.split = some splits →
        2 ^ 32 ∣ totalWeight splits → totalWeight splits = 0 :=
  asSpecified_iff ((tabled_new h).serve lookups) wall ctx

end Spec

/-- No patterns. -/
def literalOnly : Regexes Empty := ⟨fun _ => .error "unsupported", nofun⟩

/-- A clock on the wall that shows noon, everywhere. -/
def noon : Zones Unit := ⟨fun _ => some (), (), fun _ _ => ⟨.mon, 12, 0⟩⟩

/-- A route for every message, with two clusters of the given weights. -/
def splitRoute (first second : UInt32) : RouteConfig where
  name := "split"
  match_ := { pre := some "" }
  split := some [⟨"a", first⟩, ⟨"b", second⟩]

/-- Two clusters of equal weight, and the second lookup. -/
theorem route_context_selects_even_split :
    ∃ router, Router.new literalOnly [splitRoute 1 1] ∅ = .ok router ∧
      AsSpecified literalOnly noon 0 [splitRoute 1 1] { destination := "258" }
        ((router.serve literalOnly noon [⟨0, { destination := "258" }⟩]).routeContext literalOnly noon 0
          { destination := "258" }).1 := by
  refine ⟨_, rfl, (route_context_selects_iff rfl _ 0 _).mpr fun config splits hpicked hsplit hdvd => ?_⟩
  obtain rfl := List.mem_singleton.mp hpicked.mem
  cases hsplit
  exact absurd hdvd (by decide)

/-- Two weights of 2^31: the total wraps to zero, and the route yields nothing. -/
theorem route_context_loses_heavy_split :
    ∃ router, Router.new literalOnly [splitRoute 2147483648 2147483648] ∅ = .ok router ∧
      ¬ AsSpecified literalOnly noon 0 [splitRoute 2147483648 2147483648] { destination := "258" }
        (router.routeContext literalOnly noon 0 { destination := "258" }).1 := by
  refine ⟨_, rfl, fun hspec => ?_⟩
  rcases hspec.none_iff.mp rfl with hnone | ⟨config, splits, hpicked, hsplit, hzero⟩
  · refine hnone _ List.mem_cons_self ⟨List.nil_prefix, ?_, ?_, ?_, ?_, ?_, ?_, ?_⟩ <;> nofun
  · obtain rfl := List.mem_singleton.mp hpicked.mem
    cases hsplit
    exact absurd hzero (by decide)

/-! ## Configurations that have been validated -/

/-- No addition of weights overflows, from a weight that has been added up so far. -/
def WeightedSplit.Fits : UInt32 → List TrafficSplit → Prop
  | _, [] => True
  | cumulative, split :: splits =>
    cumulative.toNat + split.weight.toNat < 2 ^ 32 ∧ Fits (cumulative + split.weight) splits

/-- The additions stay below 2^32 when the last one does. -/
theorem fits_iff {cumulative : UInt32} {splits : List TrafficSplit} :
    WeightedSplit.Fits cumulative splits ↔ cumulative.toNat + totalWeight splits < 2 ^ 32 := by
  induction splits generalizing cumulative with
  | nil => exact iff_of_true trivial cumulative.toNat_lt
  | cons split splits ih =>
    have htotal : totalWeight (split :: splits) = split.weight.toNat + totalWeight splits := rfl
    rw [WeightedSplit.Fits, ih, htotal, UInt32.toNat_add]
    constructor
    · rintro ⟨hfirst, hrest⟩
      rw [Nat.mod_eq_of_lt hfirst] at hrest
      omega
    · intro hsum
      have hfirst : cumulative.toNat + split.weight.toNat < 2 ^ 32 := by omega
      rw [Nat.mod_eq_of_lt hfirst]
      exact ⟨hfirst, by omega⟩

section Validated

variable (regexes : Regexes Rx) (zones : Zones Tz) (wall : SystemTime)

/-- The router of a configuration is built with no overflow, and serves the message whenever some route
    matches it, with clusters of the configuration. -/
def RoutesSoundly (config : Config) (clusters : Clusters) (ctx : MatchContext) : Prop :=
  ∃ router, Router.new regexes config.routes clusters = .ok router ∧
    (∀ route ∈ config.routes, ∀ splits, route.split = some splits → WeightedSplit.Fits 0 splits) ∧
    ∀ lookups : List Lookup,
      (∃ route ∈ (router.serve regexes zones lookups).routes,
        route.matcher.matchesContext regexes zones wall ctx = true) →
      ∃ result, ((router.serve regexes zones lookups).routeContext regexes zones wall ctx).1 = some result ∧
        ∀ name ∈ result.clustersToTry, name ∈ config.clusterNames

end Validated

theorem exists_matching_serves {regexes : Regexes Rx} {zones : Zones Tz} {wall : SystemTime}
    {ctx : MatchContext} {configs : List RouteConfig} {routes : List (Route Rx)}
    (h : List.Forall₂ (Serves regexes) configs routes) :
    (∃ route ∈ routes, route.matcher.matchesContext regexes zones wall ctx = true) ↔
      ∃ config ∈ configs, Qualifies regexes zones wall config.match_ ctx := by
  induction h with
  | nil =>
    refine iff_of_false ?_ ?_ <;>
      · rintro ⟨_, hmem, -⟩
        exact List.not_mem_nil hmem
  | cons hserves hrest ih =>
    rw [List.exists_mem_cons_iff, List.exists_mem_cons_iff, matches_iff_qualifies hserves, ih]

/-- Some route of the table matches exactly when there is a route to pick. -/
theorem exists_matching_iff {regexes : Regexes Rx} {zones : Zones Tz} {wall : SystemTime}
    {ctx : MatchContext} {configs : List RouteConfig} {router : Router Rx}
    (h : Tabled regexes configs router) :
    (∃ route ∈ router.routes, route.matcher.matchesContext regexes zones wall ctx = true) ↔
      ∃ config, Picked regexes zones wall configs ctx config := by
  rw [exists_matching_serves h]
  unfold Picked
  rw [exists_earliest_iff]
  simp only [List.mem_insertionSort]

/-- Where no split's weights overflow, selection is as specified. -/
theorem asSpecified_of_light {regexes : Regexes Rx} {configs : List RouteConfig} {router : Router Rx}
    (h : Tabled regexes configs router)
    (hlight : ∀ route ∈ configs, ∀ splits, route.split = some splits → totalWeight splits < 2 ^ 32)
    (zones : Zones Tz) (wall : SystemTime) (ctx : MatchContext) :
    AsSpecified regexes zones wall configs ctx (router.routeContext regexes zones wall ctx).1 := by
  refine (asSpecified_iff h wall ctx).mpr fun route splits hpicked hsplit hdvd => ?_
  exact Nat.eq_zero_of_dvd_of_lt hdvd (hlight route hpicked.mem splits hsplit)

/-- A result as specified leads to clusters of the configuration, if that is sound. -/
theorem mem_clusterNames_of_asSpecified {regexes : Regexes Rx} {zones : Zones Tz} {wall : SystemTime}
    {ctx : MatchContext} {config : Config} (hsound : config.Sound) {result : RouteResult}
    (hspec : AsSpecified regexes zones wall config.routes ctx (some result)) :
    ∀ name ∈ result.clustersToTry, name ∈ config.clusterNames := by
  obtain ⟨route, hpicked, -, hfallback, hleads⟩ := hspec.found result rfl
  intro name hname
  rcases List.mem_cons.mp hname with rfl | hname
  · unfold LeadsTo at hleads
    cases hsplit : route.split with
    | none =>
      rw [hsplit] at hleads
      exact hsound.cluster route hpicked.mem _ hleads
    | some splits =>
      rw [hsplit] at hleads
      obtain ⟨s, hs, hcluster, -⟩ := hleads
      rw [← hcluster]
      exact hsound.split route hpicked.mem splits hsplit s hs
  · rw [hfallback] at hname
    exact hsound.fallback route hpicked.mem name hname

/-- **Validation is sound for routing** exactly when no split's weights overflow and the route picked
    for the message is not a split without weight. -/
theorem validated_routes_iff (regexes : Regexes Rx) (zones : Zones Tz) {config : Config}
    (hvalid : config.validate = .ok ())
    (hcompile : ∀ route ∈ config.routes, PatternsCompile regexes route.match_) (clusters : Clusters)
    (wall : SystemTime) (ctx : MatchContext) :
    RoutesSoundly regexes zones wall config clusters ctx ↔
      (∀ route ∈ config.routes, ∀ splits, route.split = some splits → totalWeight splits < 2 ^ 32) ∧
        ∀ route splits, Picked regexes zones wall config.routes ctx route → route.split = some splits →
          totalWeight splits ≠ 0 := by
  have hsound := Config.sound_of_validate hvalid
  obtain ⟨router, hrouter⟩ : ∃ router, Router.new regexes config.routes clusters = .ok router :=
    Router.exists_new_eq_ok.mpr fun route hroute => ⟨hcompile route hroute, hsound.target route hroute⟩
  have hfits : (∀ route ∈ config.routes, ∀ splits, route.split = some splits → WeightedSplit.Fits 0 splits) ↔
      ∀ route ∈ config.routes, ∀ splits, route.split = some splits → totalWeight splits < 2 ^ 32 := by
    simp only [fits_iff, UInt32.toNat_zero, Nat.zero_add]
  have htabled : ∀ lookups, Tabled regexes config.routes (router.serve regexes zones lookups) :=
    (tabled_new hrouter).serve
  constructor
  · rintro ⟨router', hrouter', hadditions, hserved⟩
    obtain rfl : router = router' := Except.ok.inj (hrouter.symm.trans hrouter')
    have hlight := hfits.mp hadditions
    refine ⟨hlight, fun route splits hpicked hsplit hzero => ?_⟩
    obtain ⟨result, hresult, -⟩ := hserved [] ((exists_matching_iff (htabled [])).mpr ⟨route, hpicked⟩)
    have hspec := asSpecified_of_light (htabled []) hlight zones wall ctx
    rw [hspec.none_iff.mpr (Or.inr ⟨route, splits, hpicked, hsplit, hzero⟩)] at hresult
    cases hresult
  · rintro ⟨hlight, hweight⟩
    refine ⟨router, hrouter, hfits.mpr hlight, fun lookups hmatches => ?_⟩
    obtain ⟨route, hpicked⟩ := (exists_matching_iff (htabled lookups)).mp hmatches
    have hspec := asSpecified_of_light (htabled lookups) hlight zones wall ctx
    cases hresult : ((router.serve regexes zones lookups).routeContext regexes zones wall ctx).1 with
    | none =>
      rcases hspec.none_iff.mp hresult with hnone | ⟨r, splits, hpicked', hsplit, hzero⟩
      · exact absurd hpicked.holds (hnone route hpicked.mem)
      · exact absurd hzero (hweight r splits hpicked' hsplit)
    | some result =>
      rw [hresult] at hspec
      exact ⟨result, rfl, mem_clusterNames_of_asSpecified hsound hspec⟩

/-- A configuration with two clusters, and one route for every message that is split as given. -/
def splitConfig (splits : List TrafficSplit) : Config where
  listeners := [{ name := "default", address := "0.0.0.0:2775" }]
  clusters := [{ name := "a", endpoints := [], mock := true }, { name := "b", endpoints := [], mock := true }]
  routes := [{ name := "split", match_ := { pre := some "" }, split := some splits }]

theorem splitConfig_compiles (splits : List TrafficSplit) :
    ∀ route ∈ (splitConfig splits).routes, PatternsCompile literalOnly route.match_ := by
  intro route hroute
  obtain rfl := List.mem_singleton.mp hroute
  refine ⟨fun k hk => ?_, nofun, nofun⟩
  cases hk
  trivial

/-- Weights 80 and 20. -/
theorem validated_routes_weighted :
    (splitConfig [⟨"a", 80⟩, ⟨"b", 20⟩]).validate = .ok () ∧
      RoutesSoundly literalOnly noon 0 (splitConfig [⟨"a", 80⟩, ⟨"b", 20⟩]) ∅ { destination := "258" } := by
  refine ⟨rfl, (validated_routes_iff literalOnly noon rfl (splitConfig_compiles _) ∅ 0 _).mpr ⟨?_, ?_⟩⟩
  · intro route hroute splits hsplit
    obtain rfl := List.mem_singleton.mp hroute
    cases hsplit
    decide
  · intro route splits hpicked hsplit
    obtain rfl := List.mem_singleton.mp hpicked.mem
    cases hsplit
    decide

/-- An empty split passes the validator and serves nobody. -/
theorem validated_routes_empty_split :
    (splitConfig []).validate = .ok () ∧
      (∀ route ∈ (splitConfig []).routes, PatternsCompile literalOnly route.match_) ∧
      ¬ RoutesSoundly literalOnly noon 0 (splitConfig []) ∅ { destination := "258" } := by
  refine ⟨rfl, splitConfig_compiles [], ?_⟩
  rintro ⟨router, hrouter, -, hserved⟩
  cases hrouter
  obtain ⟨result, hresult, -⟩ := hserved [] ⟨_, List.mem_cons_self, rfl⟩
  cases hresult

end Smppd.Router
