/-
  RATE CONDITIONS over sequences of messages: what a condition is true of, and whose evaluations it counts.

  A condition has a window and a threshold of its own, but what it counts in is an entry of ONE table whose
  key is the kind of the condition and the value of the message, nothing else.  Two conditions of one kind
  therefore count in the same entry, each with its own idea of when the window ends.

  `checksOf` lists the evaluations of rate conditions that the engine makes, in order, each with the place of
  its condition in the firewall.  The table is what these evaluations leave in it (`Tracks`); and where all of
  an entry was counted by ONE condition, the count is that of its current window (`counted_eq_window`).
-/
import Smppd.Lib.Machine
import Smppd.Firewall.Decider

set_option linter.unusedVariables false

namespace Smppd.Firewall

open Smppd.Store Table Machine

variable {Rx Tz Ip Net : Type}

/-! ## The evaluations of rate conditions -/

/-- A rate condition of a compiled firewall: where it is, and what it says. -/
structure RateNode where
  path : List Nat
  key : RateKey
  window : Duration
  threshold : UInt64
  deriving DecidableEq

/-- One evaluation of a rate condition. -/
structure Check where
  node : RateNode
  /-- The value of the message for the key of the condition. -/
  value : String
  clock : Clock
  truth : Bool

namespace Evaluation

variable [DecidableEq Ip] (e : Evaluation Rx Tz Ip Net)

/-- The evaluation of the rate condition at a place. -/
def check (path : List Nat) (key : RateKey) (window : Duration) (threshold : UInt64) (rates : RateLimits) : Check :=
  { node := ⟨path, key, window, threshold⟩
    value := e.ctx.getRateKey e.platform key
    clock := e.clock
    truth := (checkRateLimit e.platform e.clock key window threshold e.ctx rates).1 }

mutual

/-- The evaluations in that of a condition. -/
def checksOf (path : List Nat) : CompiledCondition Rx Ip Net → RateLimits → List Check
  | .rate key window threshold, rates => [e.check path key window threshold rates]
  | .not inner, rates => checksOf (0 :: path) inner rates
  | .and conditions, rates => checksOfAll path 0 conditions rates
  | .or conditions, rates => checksOfAny path 0 conditions rates
  | _, _ => []

/-- The evaluations in the loop of an And, from the part at a place on. -/
def checksOfAll (path : List Nat) (place : Nat) : List (CompiledCondition Rx Ip Net) → RateLimits → List Check
  | [], _ => []
  | condition :: conditions, rates =>
    checksOf (place :: path) condition rates ++
      match evaluateCondition e.platform e.lists e.clock e.ctx condition rates with
      | (true, rates) => checksOfAll path (place + 1) conditions rates
      | (false, _) => []

/-- The evaluations in the loop of an Or, from the part at a place on. -/
def checksOfAny (path : List Nat) (place : Nat) : List (CompiledCondition Rx Ip Net) → RateLimits → List Check
  | [], _ => []
  | condition :: conditions, rates =>
    checksOf (place :: path) condition rates ++
      match evaluateCondition e.platform e.lists e.clock e.ctx condition rates with
      | (true, _) => []
      | (false, rates) => checksOfAny path (place + 1) conditions rates

end

/-- The evaluations in the loop over the rules of a chain. -/
def checksOfRules (path : List Nat) (place : Nat) : List (CompiledRule Rx Ip Net) → RateLimits → List Check
  | [], _ => []
  | rule :: rules, rates =>
    if !rule.enabled then checksOfRules path (place + 1) rules rates
    else
      e.checksOfAll (place :: path) 0 rule.conditions rates ++
        match evaluateConditions e.platform e.lists e.clock e.ctx rule.conditions rates with
        | (true, _) => []
        | (false, rates) => checksOfRules path (place + 1) rules rates

/-- The evaluations in the loop over the chains. -/
def checksOfChains (place : Nat) : List (CompiledChain Rx Ip Net) → RateLimits → List Check
  | [], _ => []
  | chain :: chains, rates =>
    if chain.chainType ≠ .input then checksOfChains (place + 1) chains rates
    else
      e.checksOfRules [place] 0 chain.rules rates ++
        let (result, rates) := evaluateChain e.platform e.lists e.clock e.ctx chain rates
        if result.isTerminal then [] else checksOfChains (place + 1) chains rates

end Evaluation

/-- The evaluations in that of a message. -/
def CompiledFirewall.checks [DecidableEq Ip] (platform : Platform Rx Tz Ip Net) (clock : Clock)
    (ctx : EvaluationContext Ip) (self : CompiledFirewall Rx Ip Net) : List Check :=
  if !self.enabled then []
  else Evaluation.checksOfChains ⟨platform, self.lists, clock, ctx⟩ 0 self.chains self.rateLimits

/-! ## Sequences of messages -/

/-- What happens to a firewall. -/
inductive Event (Ip : Type) where
  | message (clock : Clock) (ctx : EvaluationContext Ip)
  | loadList (name : String) (entries : List String)

/-- A firewall, with the evaluations of rate conditions so far. -/
structure Watched (Rx Ip Net : Type) where
  firewall : CompiledFirewall Rx Ip Net
  log : List Check

/-- One event. -/
def Watched.step [DecidableEq Ip] (platform : Platform Rx Tz Ip Net) (self : Watched Rx Ip Net) :
    Event Ip → Option (Watched Rx Ip Net)
  | .message clock ctx =>
    some ⟨(self.firewall.evaluate platform clock ctx).2, self.log ++ self.firewall.checks platform clock ctx⟩
  | .loadList name entries => some { self with firewall := self.firewall.loadList name entries }

/-! ## What a condition should count -/

/-- The evaluations of the current window, and one more: it belongs to the window, or starts a new one. -/
def extendWindow (window : Duration) (current : List Clock) (clock : Clock) : List Clock :=
  match current with
  | [] => [clock]
  | start :: rest => if window ≤ elapsed clock start.now then [clock] else start :: rest ++ [clock]

/-- The evaluations of the current window. -/
def currentWindow (window : Duration) (clocks : List Clock) : List Clock := clocks.foldl (extendWindow window) []

/-- The earlier evaluations of the same condition for the same value. -/
def Check.own (check : Check) (before : List Check) : List Check :=
  before.filter fun c => c.node = check.node ∧ c.value = check.value

/-- More evaluations than the threshold are in the current window of the condition for the value, this one
    included. -/
def Check.Exceeds (check : Check) (before : List Check) : Prop :=
  check.node.threshold.toNat <
    (currentWindow check.node.window ((check.own before).map Check.clock ++ [check.clock])).length

instance (check : Check) (before : List Check) : Decidable (check.Exceeds before) :=
  inferInstanceAs (Decidable (_ < _))

/-- Every earlier evaluation for the kind and the value of this one was of the same condition. -/
def Check.Alone (check : Check) (before : List Check) : Prop :=
  ∀ c ∈ before, c.node.key = check.node.key → c.value = check.value → c.node = check.node

/-! ## What the table counts -/

/-- The keys of the table tell kinds and values apart. -/
theorem rateKeyText_injective {key key' : RateKey} {value value' : String}
    (h : rateKeyText key value = rateKeyText key' value') : key = key' ∧ value = value' := by
  have hchars : key.debugName.toList ++ ':' :: value.toList = key'.debugName.toList ++ ':' :: value'.toList := by
    have htext := congrArg String.toList h
    simpa [rateKeyText, String.toList_append] using htext
  have hkey : key = key' := by
    cases key <;> cases key' <;> first
      | rfl
      | (simp [RateKey.debugName] at hchars)
  subst hkey
  refine ⟨rfl, ?_⟩
  have htail := (List.cons.inj (List.append_cancel_left hchars)).2
  exact String.toList_inj.mp htail

/-- An entry after one more evaluation. -/
def recount (state : Option RateLimitState) (check : Check) : Option RateLimitState :=
  let state := (state.getD ⟨0, check.clock.now⟩).current check.clock check.node.window
  some { state with count := state.count + 1 }

/-- What a list of evaluations leaves in an entry. -/
def counted (checks : List Check) : Option RateLimitState := checks.foldl recount none

/-- Where one condition counts alone, the entry is its current window. -/
theorem counted_eq_window {window : Duration} {checks : List Check} (h : ∀ c ∈ checks, c.node.window = window) :
    counted checks = (currentWindow window (checks.map Check.clock)).head?.map fun start =>
      ⟨(currentWindow window (checks.map Check.clock)).length, start.now⟩ := by
  induction checks using List.reverseRecOn with
  | nil => rfl
  | append_singleton checks c ih =>
    have hbefore := ih fun d hd => h d (List.mem_append_left _ hd)
    have hwindow : c.node.window = window := h c (List.mem_append_right _ (List.mem_singleton_self _))
    have hstep : currentWindow window ((checks ++ [c]).map Check.clock) =
        extendWindow window (currentWindow window (checks.map Check.clock)) c.clock := by
      rw [List.map_append, currentWindow, List.foldl_append]
      rfl
    have hcount : counted (checks ++ [c]) = recount (counted checks) c := by
      rw [counted, List.foldl_append]
      rfl
    rw [hstep, hcount, hbefore]
    cases currentWindow window (checks.map Check.clock) with
    | nil =>
      -- the first evaluation of all starts a window, whatever its length
      show recount none c = _
      unfold recount RateLimitState.current extendWindow
      simp only [Option.getD_none, hwindow]
      split <;> rfl
    | cons start rest =>
      unfold recount RateLimitState.current extendWindow
      simp only [List.head?_cons, Option.map_some, Option.getD_some, hwindow]
      split
      · rfl
      · simp

/-- The table is what the evaluations so far leave in it. -/
def Tracks (rates : RateLimits) (log : List Check) : Prop :=
  ∀ key value, rates.lookup (rateKeyText key value) =
    counted (log.filter fun c => c.node.key = key ∧ c.value = value)

/-- **The invariant**: the table tracks the evaluations, and those of a condition that counted alone were right. -/
structure Honest (rates : RateLimits) (log : List Check) : Prop where
  tracks : Tracks rates log
  right : ∀ before check after, log = before ++ check :: after → check.Alone before →
    (check.truth = true ↔ check.Exceeds before)

theorem honest_empty : Honest ∅ [] := by
  refine ⟨fun key value => rfl, fun before check after heq => ?_⟩
  exact absurd heq.symm (List.append_ne_nil_of_right_ne_nil _ (List.cons_ne_nil _ _))

namespace Evaluation

section Check

variable (e : Evaluation Rx Tz Ip Net) (path : List Nat) (key : RateKey) (window : Duration) (threshold : UInt64)

/-- An evaluation counts in its entry, and in no other. -/
theorem lookup_check (rates : RateLimits) (text : String) :
    (checkRateLimit e.platform e.clock key window threshold e.ctx rates).2.lookup text =
      if text = rateKeyText key (e.ctx.getRateKey e.platform key) then
        recount (rates.lookup text) (e.check path key window threshold rates)
      else rates.lookup text := by
  unfold checkRateLimit
  by_cases htext : text = rateKeyText key (e.ctx.getRateKey e.platform key)
  · rw [if_pos htext, htext]
    exact AList.lookup_insert rates
  · rw [if_neg htext]
    exact AList.lookup_insert_ne htext

theorem tracks_check {rates : RateLimits} {log : List Check} (h : Tracks rates log) :
    Tracks (checkRateLimit e.platform e.clock key window threshold e.ctx rates).2
      (log ++ [e.check path key window threshold rates]) := by
  intro key' value'
  rw [e.lookup_check path, List.filter_append]
  by_cases hsame : rateKeyText key' value' = rateKeyText key (e.ctx.getRateKey e.platform key)
  · obtain ⟨rfl, rfl⟩ := rateKeyText_injective hsame
    have hnew : [e.check path key' window threshold rates].filter
        (fun c => c.node.key = key' ∧ c.value = e.ctx.getRateKey e.platform key') =
          [e.check path key' window threshold rates] := by
      simp [check]
    rw [if_pos rfl, hnew, h, counted, counted, List.foldl_append]
    rfl
  · have hnew : [e.check path key window threshold rates].filter
        (fun c => c.node.key = key' ∧ c.value = value') = [] := by
      rw [List.filter_eq_nil_iff]
      intro c hc
      rw [List.mem_singleton] at hc
      subst hc
      rw [decide_eq_true_iff]
      rintro ⟨rfl, rfl⟩
      exact hsame rfl
    rw [if_neg hsame, hnew, List.append_nil]
    exact h key' value'

/-- Where the condition is alone, the entry it counts in holds its own evaluations. -/
theorem lookup_own {rates : RateLimits} {log : List Check} (h : Tracks rates log)
    (halone : (e.check path key window threshold rates).Alone log) :
    rates.lookup (rateKeyText key (e.ctx.getRateKey e.platform key)) =
      counted ((e.check path key window threshold rates).own log) := by
  rw [h]
  congr 1
  refine List.filter_congr fun d hd => ?_
  rw [decide_eq_decide]
  constructor
  · rintro ⟨hkey, hvalue⟩
    exact ⟨halone d hd hkey hvalue, hvalue⟩
  · rintro ⟨hnode, hvalue⟩
    rw [hnode]
    exact ⟨rfl, hvalue⟩

/-- **Where the condition is alone, its truth is that of its own window.** -/
theorem check_right {rates : RateLimits} {log : List Check} (h : Tracks rates log)
    (halone : (e.check path key window threshold rates).Alone log) :
    (e.check path key window threshold rates).truth = true ↔
      (e.check path key window threshold rates).Exceeds log := by
  have hown := e.lookup_own path key window threshold h halone
  have hwindow : ∀ d ∈ (e.check path key window threshold rates).own log ++
      [e.check path key window threshold rates], d.node.window = window := by
    intro d hd
    rcases List.mem_append.mp hd with hd | hd
    · rw [(of_decide_eq_true (List.mem_filter.mp hd).2).1]
      rfl
    · rw [List.mem_singleton.mp hd]
      rfl
  have hcount := counted_eq_window hwindow
  rw [counted, List.foldl_append, ← counted, ← hown, List.map_append] at hcount
  -- both sides compare the threshold with what the entry counts afterwards
  obtain ⟨start, -, hstate⟩ := Option.map_eq_some_iff.mp hcount.symm
  have hlength := (congrArg RateLimitState.count hstate).symm
  show decide (_ < _) = true ↔ _
  rw [decide_eq_true_iff]
  exact iff_of_eq (congrArg (fun n => threshold.toNat < n) hlength)

/-- **The step lemma**: one evaluation of a rate condition. -/
theorem honest_check {rates : RateLimits} {log : List Check} (h : Honest rates log) :
    Honest (checkRateLimit e.platform e.clock key window threshold e.ctx rates).2
      (log ++ [e.check path key window threshold rates]) := by
  refine ⟨e.tracks_check path key window threshold h.tracks, fun before c after heq halone => ?_⟩
  rcases List.eq_nil_or_concat after with rfl | ⟨after', last, rfl⟩
  · obtain ⟨rfl, hc⟩ := List.append_inj' heq rfl
    obtain rfl := List.head_eq_of_cons_eq hc
    exact e.check_right path key window threshold h.tracks halone
  · rw [List.concat_eq_append, ← List.cons_append, ← List.append_assoc] at heq
    obtain ⟨hlog, -⟩ := List.append_inj' heq rfl
    exact h.right before c after' hlog halone

end Check

variable [DecidableEq Ip] (e : Evaluation Rx Tz Ip Net)

mutual

/-- An evaluation of a condition makes the evaluations of `checksOf`. -/
theorem honest_condition : (c : CompiledCondition Rx Ip Net) → (path : List Nat) → (rates : RateLimits) →
    (log : List Check) → Honest rates log →
      Honest (evaluateCondition e.platform e.lists e.clock e.ctx c rates).2 (log ++ e.checksOf path c rates)
  | .source _, _, _, log, h => (List.append_nil log).symm ▸ h
  | .destination _, _, _, log, h => (List.append_nil log).symm ▸ h
  | .systemId _, _, _, log, h => (List.append_nil log).symm ▸ h
  | .content _, _, _, log, h => (List.append_nil log).symm ▸ h
  | .contentLength _ _ _, _, _, log, h => (List.append_nil log).symm ▸ h
  | .protocolId _, _, _, log, h => (List.append_nil log).symm ▸ h
  | .dataCoding _, _, _, log, h => (List.append_nil log).symm ▸ h
  | .tlsEnabled _, _, _, log, h => (List.append_nil log).symm ▸ h
  | .time _ _ _ _ _, _, _, log, h => (List.append_nil log).symm ▸ h
  | .dayOfWeek _, _, _, log, h => (List.append_nil log).symm ▸ h
  | .senderId _, _, _, log, h => by
    unfold evaluateCondition
    rw [checksOf, List.append_nil]
    split <;> exact h
    all_goals nofun
  | .clientIp _, _, _, log, h => by
    unfold evaluateCondition
    rw [checksOf, List.append_nil]
    split <;> exact h
    all_goals nofun
  | .esmClass _ mask, _, _, log, h => by
    rw [checksOf, List.append_nil]
    cases mask <;> exact h
    all_goals nofun
  | .rate key window threshold, path, _, _, h => e.honest_check path key window threshold h
  | .not c, path, rates, log, h => honest_condition c (0 :: path) rates log h
  | .and cs, path, rates, log, h => honest_all cs path 0 rates log h
  | .or cs, path, rates, log, h => honest_any cs path 0 rates log h

theorem honest_all : (cs : List (CompiledCondition Rx Ip Net)) → (path : List Nat) → (place : Nat) →
    (rates : RateLimits) → (log : List Check) → Honest rates log →
      Honest (evaluateConditions e.platform e.lists e.clock e.ctx cs rates).2
        (log ++ e.checksOfAll path place cs rates)
  | [], _, _, _, log, h => (List.append_nil log).symm ▸ h
  | c :: cs, path, place, rates, log, h => by
    have hfirst := honest_condition c (place :: path) rates log h
    rw [evaluateConditions, checksOfAll, ← List.append_assoc]
    rcases hresult : evaluateCondition e.platform e.lists e.clock e.ctx c rates with ⟨holds, rates'⟩
    rw [hresult] at hfirst
    cases holds with
    | true => exact honest_all cs path (place + 1) rates' _ hfirst
    | false =>
      rw [List.append_nil]
      exact hfirst

theorem honest_any : (cs : List (CompiledCondition Rx Ip Net)) → (path : List Nat) → (place : Nat) →
    (rates : RateLimits) → (log : List Check) → Honest rates log →
      Honest (evaluateAny e.platform e.lists e.clock e.ctx cs rates).2
        (log ++ e.checksOfAny path place cs rates)
  | [], _, _, _, log, h => (List.append_nil log).symm ▸ h
  | c :: cs, path, place, rates, log, h => by
    have hfirst := honest_condition c (place :: path) rates log h
    rw [evaluateAny, checksOfAny, ← List.append_assoc]
    rcases hresult : evaluateCondition e.platform e.lists e.clock e.ctx c rates with ⟨holds, rates'⟩
    rw [hresult] at hfirst
    cases holds with
    | true =>
      rw [List.append_nil]
      exact hfirst
    | false => exact honest_any cs path (place + 1) rates' _ hfirst

end

theorem honest_rules (rules : List (CompiledRule Rx Ip Net)) (path : List Nat) (place : Nat) {rates : RateLimits}
    {log : List Check} (h : Honest rates log) :
    Honest (evaluateRules e.platform e.lists e.clock e.ctx rules rates).2
      (log ++ e.checksOfRules path place rules rates) := by
  induction rules generalizing place rates log with
  | nil => exact (List.append_nil log).symm ▸ h
  | cons rule rules ih =>
    rw [evaluateRules, checksOfRules]
    cases rule.enabled with
    | false => exact ih (place + 1) h
    | true =>
      have hfirst := e.honest_all rule.conditions (place :: path) 0 rates log h
      simp only [Bool.not_true, Bool.false_eq_true, if_false]
      rw [← List.append_assoc]
      rcases hresult : evaluateConditions e.platform e.lists e.clock e.ctx rule.conditions rates with ⟨holds, rates'⟩
      rw [hresult] at hfirst
      cases holds with
      | true =>
        rw [List.append_nil]
        exact hfirst
      | false => exact ih (place + 1) hfirst

theorem honest_chains (chains : List (CompiledChain Rx Ip Net)) (place : Nat) {rates : RateLimits}
    {log : List Check} (h : Honest rates log) :
    Honest (evaluateChains e.platform e.lists e.clock e.ctx chains rates).2
      (log ++ e.checksOfChains place chains rates) := by
  induction chains generalizing place rates log with
  | nil => exact (List.append_nil log).symm ▸ h
  | cons chain chains ih =>
    rw [evaluateChains, checksOfChains]
    split
    · exact ih (place + 1) h
    · have hfirst := e.honest_rules chain.rules [place] 0 h
      rw [← List.append_assoc, evaluateChain]
      rcases hresult : evaluateRules e.platform e.lists e.clock e.ctx chain.rules rates with ⟨result, rates'⟩
      rw [hresult] at hfirst
      simp only
      split
      · rw [List.append_nil]
        exact hfirst
      · exact ih (place + 1) hfirst

end Evaluation

/-! ## Every sequence of messages -/

section Run

variable [DecidableEq Ip] {platform : Platform Rx Tz Ip Net}

theorem honest_step {w w' : Watched Rx Ip Net} {event : Event Ip} (h : Honest w.firewall.rateLimits w.log)
    (hstep : w.step platform event = some w') : Honest w'.firewall.rateLimits w'.log := by
  cases event with
  | loadList name entries =>
    obtain rfl := Option.some.inj hstep
    exact h
  | message clock ctx =>
    obtain rfl := Option.some.inj hstep
    show Honest (w.firewall.evaluate platform clock ctx).2.rateLimits (w.log ++ w.firewall.checks platform clock ctx)
    unfold CompiledFirewall.evaluate CompiledFirewall.checks
    cases w.firewall.enabled with
    | false => exact (List.append_nil w.log).symm ▸ h
    | true =>
      exact Evaluation.honest_chains ⟨platform, w.firewall.lists, clock, ctx⟩ w.firewall.chains 0 h

/-- **Rate conditions that count alone.**  Over any sequence of messages, and of lists that are loaded in
    between, an evaluation of a rate condition is right when no other condition was evaluated before for its
    kind and its value: it is true exactly when more evaluations of this condition for this value than its
    threshold, this one included, are in its current window. -/
theorem rate_condition_alone {config : FirewallConfig} {fw : CompiledFirewall Rx Ip Net}
    (hfw : CompiledFirewall.fromConfig platform config = .ok fw) {events : List (Event Ip)}
    {w : Watched Rx Ip Net} (hrun : run (Watched.step platform) ⟨fw, []⟩ events = some w)
    {before after : List Check} {check : Check} (hlog : w.log = before ++ check :: after)
    (halone : check.Alone before) : check.truth = true ↔ check.Exceeds before := by
  have hempty : Honest fw.rateLimits [] := by
    obtain ⟨chains, -, hmade⟩ := Fallible.bind_eq_ok.mp hfw
    cases hmade
    exact honest_empty
  have hstep : ∀ (w : Watched Rx Ip Net) (event : Event Ip) (w' : Watched Rx Ip Net),
      Honest w.firewall.rateLimits w.log → w.step platform event = some w' →
        Honest w'.firewall.rateLimits w'.log :=
    fun _ _ _ h hstep => honest_step h hstep
  exact (run_inv hstep hempty hrun).right before check after hlog halone

end Run

/-! ## One rate rule, and two -/

/-- A rule for the messages of a source beyond a threshold in a minute. -/
def overRate (threshold : UInt64) (action : ActionConfig) : RuleConfig :=
  { conditions := [.rate .source (fromSecs 60) threshold], action := action }

/-- A firewall of one chain. -/
def oneChainConfig (rules : List RuleConfig) : FirewallConfig := { chains := [{ name := "input", rules := rules }] }

/-- A message from a source. -/
def fromSource (source : String) : EvaluationContext String := .new source "258841234567" "acme" "hello"

/-- One rule: the second message of a source in a minute is over a threshold of one. -/
theorem rate_condition_alone_twice :
    ∃ fw w, CompiledFirewall.fromConfig .bare (oneChainConfig [overRate 1 .drop]) = .ok fw ∧
      run (Watched.step .bare) ⟨fw, []⟩ [.message ⟨0, 0⟩ (fromSource "a"), .message ⟨10, 10⟩ (fromSource "a")] =
        some w ∧
      ∃ before check, w.log = before ++ [check] ∧ check.truth = true ∧ check.Exceeds before := by
  refine ⟨_, _, rfl, rfl, _, _, rfl, ?_⟩
  have halone : ∀ fw w log check, CompiledFirewall.fromConfig .bare (oneChainConfig [overRate 1 .drop]) = .ok fw →
      run (Watched.step .bare) ⟨fw, []⟩ [.message ⟨0, 0⟩ (fromSource "a"), .message ⟨10, 10⟩ (fromSource "a")] = some w →
        w.log = log ++ check :: [] → check.Alone log → (check.truth = true ↔ check.Exceeds log) :=
    fun _ _ _ _ hfw hrun hlog halone => rate_condition_alone hfw hrun hlog halone
  have hright := halone _ _ [_] _ rfl rfl rfl fun c hc _ _ => by
    rw [List.mem_singleton.mp hc]
    rfl
  have htruth : (checkRateLimit .bare ⟨10, 10⟩ .source (fromSecs 60) 1 (fromSource "a")
      (checkRateLimit .bare ⟨0, 0⟩ .source (fromSecs 60) 1 (fromSource "a") ∅).2).1 = true := by
    decide +kernel
  exact ⟨htruth, hright.mp htruth⟩

/-- Two rules of one kind: the first message of a source is over the threshold of the second, because the first
    has counted it too; without the first rule it is accepted. -/
theorem rate_conditions_interfere :
    ∃ fw fw' w, CompiledFirewall.fromConfig .bare (oneChainConfig [overRate 1 .drop]) = .ok fw ∧
      CompiledFirewall.fromConfig .bare (oneChainConfig [overRate 100 (.reject 88 none), overRate 1 .drop]) = .ok fw' ∧
      (fw.evaluate .bare ⟨0, 0⟩ (fromSource "a")).1 = .accept ∧
      (fw'.evaluate .bare ⟨0, 0⟩ (fromSource "a")).1 = .drop ∧
      run (Watched.step .bare) ⟨fw', []⟩ [.message ⟨0, 0⟩ (fromSource "a")] = some w ∧
      ∃ before check after, w.log = before ++ check :: after ∧ check.truth = true ∧ ¬ check.Exceeds before := by
  refine ⟨_, _, _, rfl, rfl, ?_, ?_, rfl, [_], _, [], rfl, ?_, ?_⟩
  · decide +kernel
  · decide +kernel
  · decide +kernel
  · decide +kernel

end Smppd.Firewall
