/-
  LOG and MARK rules: what becomes of the verdict when one is put into a chain.

  The configuration calls the action "log and continue", and its result is called "continue to next chain/rule".
  But a rule that matches ends its chain, so what continues is the NEXT CHAIN: the rules behind the new one, and
  the policy of its chain, are passed over.  `Harmless` is when that makes no difference: the message does not
  get to the rule, or does not match it, or the chains behind answer what the rest of the chain would have
  answered (`Replaced`).

  Two configurations are compiled here that differ in one rule; sorting puts the two chains in the same place
  (`exists_place`), and the two evaluations go the same way until the new rule is asked.
-/
import Smppd.Lib.Rank
import Smppd.Firewall.Meaning
import Smppd.Firewall.Decider

set_option linter.unusedVariables false

namespace Smppd.Firewall

open Smppd.Store Table Fallible

variable {Rx Tz Ip Net : Type}

/-! ## Rules that only log -/

/-- An action that logs or marks and then continues. -/
def ActionConfig.OnlyLogs : ActionConfig → Prop
  | .log _ _ none | .mark _ _ => True
  | _ => False

/-- A node that is not a rate condition. -/
def ConditionConfig.Unmetered : ConditionConfig → Prop
  | .rate _ _ _ => False
  | _ => True

/-- An enabled rule that logs or marks and then continues, and does not ask for a rate. -/
structure RuleConfig.OnlyLogs (rule : RuleConfig) : Prop where
  enabled : rule.enabled = true
  action : rule.action.OnlyLogs
  unmetered : ∀ node ∈ ConditionConfig.nodesOfAll rule.conditions, node.Unmetered

theorem executeAction_onlyLogs {action : ActionConfig} (h : action.OnlyLogs) :
    executeAction action = .continue := by
  cases action with
  | log level message thenAction =>
    cases thenAction with
    | none => rfl
    | some thenAction => exact h.elim
  | mark key value => rfl
  | _ => exact h.elim

section Unmetered

variable [DecidableEq Ip] (platform : Platform Rx Tz Ip Net) (lists : Lists) (clock : Clock)
  (ctx : EvaluationContext Ip)

mutual

/-- A condition that asks for no rate counts nothing. -/
theorem evaluate_unmetered : (c : ConditionConfig) → (∀ node ∈ c.nodes, node.Unmetered) →
    (compiled : CompiledCondition Rx Ip Net) → compileCondition platform c = .ok compiled → (rates : RateLimits) →
      (evaluateCondition platform lists clock ctx compiled rates).2 = rates
  | .source _, _, _, h, _ => by
    obtain ⟨matcher, -, h⟩ := bind_eq_ok.mp h
    cases h
    rfl
  | .destination _, _, _, h, _ => by
    obtain ⟨matcher, -, h⟩ := bind_eq_ok.mp h
    cases h
    rfl
  | .senderId _, _, _, h, _ => by
    obtain ⟨matcher, -, h⟩ := bind_eq_ok.mp h
    cases h
    unfold evaluateCondition
    split <;> rfl
  | .systemId _, _, _, h, _ => by
    obtain ⟨matcher, -, h⟩ := bind_eq_ok.mp h
    cases h
    rfl
  | .content _, _, _, h, _ => by
    obtain ⟨matcher, -, h⟩ := bind_eq_ok.mp h
    cases h
    rfl
  | .clientIp _, _, _, h, _ => by
    obtain ⟨matcher, -, h⟩ := bind_eq_ok.mp h
    cases h
    unfold evaluateCondition
    split <;> rfl
  | .contentLength _ _ _, _, _, h, _ => by
    cases h
    rfl
  | .esmClass _ mask, _, _, h, _ => by
    cases h
    cases mask <;> rfl
  | .protocolId _, _, _, h, _ => by
    cases h
    rfl
  | .dataCoding _, _, _, h, _ => by
    cases h
    rfl
  | .tlsEnabled _, _, _, h, _ => by
    cases h
    rfl
  | .rate key window threshold, hfree, _, _, _ => (hfree _ (List.mem_singleton_self _)).elim
  | .time _ _ _, _, _, h, _ => by
    obtain ⟨start, -, h⟩ := bind_eq_ok.mp h
    obtain ⟨stop, -, h⟩ := bind_eq_ok.mp h
    cases h
    rfl
  | .dayOfWeek _, _, _, h, _ => by
    cases h
    rfl
  | .plugin _, _, _, h, _ => nomatch h
  | .not c, hfree, _, h, rates => by
    obtain ⟨compiled, hcompiled, h⟩ := bind_eq_ok.mp h
    cases h
    exact evaluate_unmetered c (fun node hnode => hfree node (List.mem_cons_of_mem _ hnode)) compiled hcompiled rates
  | .and cs, hfree, _, h, rates => by
    obtain ⟨compiled, hcompiled, h⟩ := bind_eq_ok.mp h
    cases h
    exact evaluateAll_unmetered cs (fun node hnode => hfree node (List.mem_cons_of_mem _ hnode)) compiled hcompiled
      rates
  | .or cs, hfree, _, h, rates => by
    obtain ⟨compiled, hcompiled, h⟩ := bind_eq_ok.mp h
    cases h
    exact evaluateAny_unmetered cs (fun node hnode => hfree node (List.mem_cons_of_mem _ hnode)) compiled hcompiled
      rates

theorem evaluateAll_unmetered : (cs : List ConditionConfig) →
    (∀ node ∈ ConditionConfig.nodesOfAll cs, node.Unmetered) → (compiled : List (CompiledCondition Rx Ip Net)) →
    compileConditions platform cs = .ok compiled → (rates : RateLimits) →
      (evaluateConditions platform lists clock ctx compiled rates).2 = rates
  | [], _, _, h, _ => by
    cases h
    rfl
  | c :: cs, hfree, _, h, rates => by
    obtain ⟨first, hfirst, h⟩ := bind_eq_ok.mp h
    obtain ⟨rest, hrest, h⟩ := bind_eq_ok.mp h
    cases h
    have ih := evaluate_unmetered c (fun node hnode => hfree node (List.mem_append_left _ hnode)) first hfirst rates
    have ihRest := evaluateAll_unmetered cs (fun node hnode => hfree node (List.mem_append_right _ hnode)) rest hrest
      rates
    rw [evaluateConditions]
    rcases hfirst : evaluateCondition platform lists clock ctx first rates with ⟨holds, rates'⟩
    rw [hfirst] at ih
    obtain rfl : rates' = rates := ih
    cases holds with
    | true => exact ihRest
    | false => rfl

theorem evaluateAny_unmetered : (cs : List ConditionConfig) →
    (∀ node ∈ ConditionConfig.nodesOfAll cs, node.Unmetered) → (compiled : List (CompiledCondition Rx Ip Net)) →
    compileConditions platform cs = .ok compiled → (rates : RateLimits) →
      (evaluateAny platform lists clock ctx compiled rates).2 = rates
  | [], _, _, h, _ => by
    cases h
    rfl
  | c :: cs, hfree, _, h, rates => by
    obtain ⟨first, hfirst, h⟩ := bind_eq_ok.mp h
    obtain ⟨rest, hrest, h⟩ := bind_eq_ok.mp h
    cases h
    have ih := evaluate_unmetered c (fun node hnode => hfree node (List.mem_append_left _ hnode)) first hfirst rates
    have ihRest := evaluateAny_unmetered cs (fun node hnode => hfree node (List.mem_append_right _ hnode)) rest hrest
      rates
    rw [evaluateAny]
    rcases hfirst : evaluateCondition platform lists clock ctx first rates with ⟨holds, rates'⟩
    rw [hfirst] at ih
    obtain rfl : rates' = rates := ih
    cases holds with
    | true => rfl
    | false => exact ihRest

end

end Unmetered

/-! ## One rule more -/

/-- A configuration, an Input chain in it, a position in the chain, and a rule for that position. -/
structure Insertion where
  enabled : Bool
  defaultPolicy : Policy
  before : List ChainConfig
  chain : ChainConfig
  after : List ChainConfig
  earlier : List RuleConfig
  rule : RuleConfig
  later : List RuleConfig

namespace Insertion

/-- The configuration with the given rules in the chain. -/
def withRules (self : Insertion) (rules : List RuleConfig) : FirewallConfig :=
  { enabled := self.enabled, defaultPolicy := self.defaultPolicy,
    chains := self.before ++ { self.chain with rules := rules } :: self.after }

/-- The configuration without the rule. -/
def without (self : Insertion) : FirewallConfig := self.withRules (self.earlier ++ self.later)

/-- The configuration with the rule. -/
def inserted (self : Insertion) : FirewallConfig := self.withRules (self.earlier ++ self.rule :: self.later)

end Insertion

/-- Where the rule is in the compiled firewall: the chains that are evaluated before its own and after it, and
    the rules of its chain before it and after it. -/
structure Place (Rx Ip Net : Type) where
  ahead : List (CompiledChain Rx Ip Net)
  chain : CompiledChain Rx Ip Net
  behind : List (CompiledChain Rx Ip Net)
  earlier : List (CompiledRule Rx Ip Net)
  rule : CompiledRule Rx Ip Net
  later : List (CompiledRule Rx Ip Net)

namespace Place

/-- The chains, with the given rules in the one where the rule is. -/
def withRules (self : Place Rx Ip Net) (rules : List (CompiledRule Rx Ip Net)) : List (CompiledChain Rx Ip Net) :=
  self.ahead ++ { self.chain with rules := rules } :: self.behind

/-- The place is where the two compiled firewalls differ, by a rule compiled from the one inserted. -/
structure Marks (place : Place Rx Ip Net) (platform : Platform Rx Tz Ip Net) (insertion : Insertion)
    (fw fw' : CompiledFirewall Rx Ip Net) : Prop where
  without : fw.chains = place.withRules (place.earlier ++ place.later)
  inserted : fw'.chains = place.withRules (place.earlier ++ place.rule :: place.later)
  rule : compileRule platform insertion.rule = .ok place.rule
  earlier : collect (compileRule platform) insertion.earlier = .ok place.earlier
  later : collect (compileRule platform) insertion.later = .ok place.later
  chain : ∀ rules, { place.chain with rules := rules } = (⟨insertion.chain.name, insertion.chain.chainType,
    insertion.chain.priority, insertion.chain.policy, rules⟩ : CompiledChain Rx Ip Net)

end Place

/-- **Both configurations compile to the same, but for the rule.** -/
theorem exists_place {platform : Platform Rx Tz Ip Net} {insertion : Insertion}
    {fw fw' : CompiledFirewall Rx Ip Net} (hfw : CompiledFirewall.fromConfig platform insertion.without = .ok fw)
    (hfw' : CompiledFirewall.fromConfig platform insertion.inserted = .ok fw') :
    ∃ place : Place Rx Ip Net, place.Marks platform insertion fw fw' := by
  obtain ⟨chains, hchains, hfw⟩ := bind_eq_ok.mp hfw
  obtain ⟨chains', hchains', hfw'⟩ := bind_eq_ok.mp hfw'
  cases hfw
  cases hfw'
  obtain ⟨before, tail, hbefore, htail, rfl⟩ := collect_append_eq_ok.mp hchains
  obtain ⟨before', tail', hbefore', htail', rfl⟩ := collect_append_eq_ok.mp hchains'
  obtain rfl : before = before' := Except.ok.inj (hbefore.symm.trans hbefore')
  obtain ⟨chain, hchain, htail⟩ := bind_eq_ok.mp htail
  obtain ⟨after, hafter, htail⟩ := bind_eq_ok.mp htail
  cases htail
  obtain ⟨chain', hchain', htail'⟩ := bind_eq_ok.mp htail'
  obtain ⟨after', hafter', htail'⟩ := bind_eq_ok.mp htail'
  cases htail'
  obtain rfl : after = after' := Except.ok.inj (hafter.symm.trans hafter')
  obtain ⟨rules, hrules, hchain⟩ := bind_eq_ok.mp hchain
  cases hchain
  obtain ⟨rules', hrules', hchain'⟩ := bind_eq_ok.mp hchain'
  cases hchain'
  obtain ⟨earlier, later, hearlier, hlater, rfl⟩ := collect_append_eq_ok.mp hrules
  obtain ⟨earlier', tail, hearlier', htail, rfl⟩ := collect_append_eq_ok.mp hrules'
  obtain rfl : earlier = earlier' := Except.ok.inj (hearlier.symm.trans hearlier')
  obtain ⟨rule, hrule, htail⟩ := bind_eq_ok.mp htail
  obtain ⟨later', hlater', htail⟩ := bind_eq_ok.mp htail
  cases htail
  obtain rfl : later = later' := Except.ok.inj (hlater.symm.trans hlater')
  -- the rules of a chain have no part in where it is sorted to
  have hkey : CompiledChain.priority ⟨insertion.chain.name, insertion.chain.chainType, insertion.chain.priority,
        insertion.chain.policy, earlier ++ later⟩ =
      CompiledChain.priority ⟨insertion.chain.name, insertion.chain.chainType, insertion.chain.priority,
        insertion.chain.policy, earlier ++ rule :: later⟩ := rfl
  obtain ⟨ahead, behind, hsorted, hsorted'⟩ := Rank.exists_insertionSort_replace hkey before after
  exact ⟨⟨ahead, ⟨insertion.chain.name, insertion.chain.chainType, insertion.chain.priority,
    insertion.chain.policy, []⟩, behind, earlier, rule, later⟩, hsorted, hsorted', hrule, hearlier, hlater,
    fun _ => rfl⟩

/-! ## What the chains answer -/

namespace Evaluation

variable [DecidableEq Ip] (e : Evaluation Rx Tz Ip Net)

/-- What some Input chains answer to a message that gets to them with the given counts.  A chain answers with
    the first of its rules that matches, if that is terminal, and with its policy, if none matches; if it
    passes the message on the next one is asked, and after the last the default policy. -/
inductive Answers (defaultPolicy : Policy) :
    List (CompiledChain Rx Ip Net) → RateLimits → EvaluationResult → Prop where
  | rule {chain : CompiledChain Rx Ip Net} {chains : List (CompiledChain Rx Ip Net)} {rates : RateLimits}
      {rule : CompiledRule Rx Ip Net} (hfirst : (e.hits chain.rules rates).head? = some rule)
      (hterminal : rule.Terminal) : Answers defaultPolicy (chain :: chains) rates (executeAction rule.action)
  | policy {chain : CompiledChain Rx Ip Net} {chains : List (CompiledChain Rx Ip Net)} {rates : RateLimits}
      (hnone : e.hits chain.rules rates = []) : Answers defaultPolicy (chain :: chains) rates chain.policy.result
  | next {chain : CompiledChain Rx Ip Net} {chains : List (CompiledChain Rx Ip Net)} {rates : RateLimits}
      {answer : EvaluationResult} (hpass : e.PassesOn chain rates)
      (hnext : Answers defaultPolicy chains (e.leave chain rates) answer) :
      Answers defaultPolicy (chain :: chains) rates answer
  | default {rates : RateLimits} : Answers defaultPolicy [] rates defaultPolicy.result

/-- The verdict of a list of chains, with a policy for when none of them has one. -/
def verdict (defaultPolicy : Policy) (chains : List (CompiledChain Rx Ip Net)) (rates : RateLimits) :
    EvaluationResult :=
  (evaluateChains e.platform e.lists e.clock e.ctx chains rates).1.getD defaultPolicy.result

variable {e}

/-- What a chain answers that passes nothing on. -/
theorem evaluateChains_of_stop {chain : CompiledChain Rx Ip Net} (hinput : chain.chainType = .input)
    (chains : List (CompiledChain Rx Ip Net)) {rates : RateLimits} (hstop : ¬ e.PassesOn chain rates) :
    (evaluateChains e.platform e.lists e.clock e.ctx (chain :: chains) rates).1 =
      some (((e.hits chain.rules rates).head?.map fun r => executeAction r.action).getD chain.policy.result) := by
  have hrules := e.evaluateRules_hits chain.rules rates
  rw [evaluateChains_input e.platform e.lists e.clock e.ctx hinput]
  rcases hresult : evaluateRules e.platform e.lists e.clock e.ctx chain.rules rates with ⟨result, rates'⟩
  rw [hresult] at hrules
  obtain rfl : result = _ := hrules
  rcases hhead : (e.hits chain.rules rates).head? with _ | rule
  · simp [isTerminal_policy]
  · have hterminal : rule.Terminal := by
      by_contra hnot
      exact hstop ⟨rule, hhead, hnot⟩
    have hends : (executeAction rule.action).isTerminal = true := hterminal
    simp [hends]

/-- A chain that passes the message on has no part in the verdict but for the counts. -/
theorem evaluateChains_of_passesOn {chain : CompiledChain Rx Ip Net} (hinput : chain.chainType = .input)
    (chains : List (CompiledChain Rx Ip Net)) {rates : RateLimits} (hpass : e.PassesOn chain rates) :
    evaluateChains e.platform e.lists e.clock e.ctx (chain :: chains) rates =
      evaluateChains e.platform e.lists e.clock e.ctx chains (e.leave chain rates) := by
  obtain ⟨rule, hhead, hnot⟩ := hpass
  have hrules := e.evaluateRules_hits chain.rules rates
  have hon : (executeAction rule.action).isTerminal = false := by
    simpa [CompiledRule.Terminal] using hnot
  rw [evaluateChains_input e.platform e.lists e.clock e.ctx hinput, leave]
  rcases hresult : evaluateRules e.platform e.lists e.clock e.ctx chain.rules rates with ⟨result, rates'⟩
  rw [hresult, hhead] at hrules
  obtain rfl : result = some (executeAction rule.action) := hrules
  simp [hon]

/-- The chains pass the message on exactly when they have no verdict; then the counts are those of `entry`. -/
theorem evaluateChains_passes {chains : List (CompiledChain Rx Ip Net)}
    (hinput : ∀ chain ∈ chains, chain.chainType = .input) {rates : RateLimits}
    (hpass : e.AtEach e.PassesOn chains rates) :
    evaluateChains e.platform e.lists e.clock e.ctx chains rates = (none, e.entry chains rates) := by
  induction chains generalizing rates with
  | nil => rfl
  | cons chain chains ih =>
    obtain ⟨hchain, hchains⟩ := List.forall_mem_cons.mp hinput
    obtain ⟨hfirst, hrest⟩ := e.atEach_cons.mp hpass
    rw [evaluateChains_of_passesOn hchain chains hfirst, entry]
    exact ih hchains hrest

theorem evaluateChains_stops {chains : List (CompiledChain Rx Ip Net)}
    (hinput : ∀ chain ∈ chains, chain.chainType = .input) {rates : RateLimits}
    (hstop : ¬ e.AtEach e.PassesOn chains rates) :
    ∃ result, (evaluateChains e.platform e.lists e.clock e.ctx chains rates).1 = some result := by
  induction chains generalizing rates with
  | nil => exact absurd e.atEach_nil hstop
  | cons chain chains ih =>
    obtain ⟨hchain, hchains⟩ := List.forall_mem_cons.mp hinput
    by_cases hfirst : e.PassesOn chain rates
    · rw [evaluateChains_of_passesOn hchain chains hfirst]
      exact ih hchains fun hrest => hstop (e.atEach_cons.mpr ⟨hfirst, hrest⟩)
    · exact ⟨_, evaluateChains_of_stop hchain chains hfirst⟩

/-- **The verdict of some Input chains is what they answer.** -/
theorem answers_iff {chains : List (CompiledChain Rx Ip Net)}
    (hinput : ∀ chain ∈ chains, chain.chainType = .input) {defaultPolicy : Policy} {rates : RateLimits}
    {answer : EvaluationResult} :
    e.Answers defaultPolicy chains rates answer ↔ e.verdict defaultPolicy chains rates = answer := by
  unfold verdict
  induction chains generalizing rates with
  | nil =>
    constructor
    · rintro ⟨⟩
      rfl
    · rintro rfl
      exact .default
  | cons chain chains ih =>
    obtain ⟨hchain, hchains⟩ := List.forall_mem_cons.mp hinput
    constructor
    · intro h
      cases h with
      | @rule _ _ _ rule hfirst hterminal =>
        have hstop : ¬ e.PassesOn chain rates := by
          rintro ⟨other, hother, hnot⟩
          obtain rfl : rule = other := Option.some.inj (hfirst.symm.trans hother)
          exact hnot hterminal
        rw [evaluateChains_of_stop hchain chains hstop, hfirst]
        rfl
      | policy hnone =>
        have hstop : ¬ e.PassesOn chain rates := by
          rintro ⟨other, hother, -⟩
          rw [hnone] at hother
          cases hother
        rw [evaluateChains_of_stop hchain chains hstop, hnone]
        rfl
      | next hpass hnext =>
        rw [evaluateChains_of_passesOn hchain chains hpass]
        exact (ih hchains).mp hnext
    · intro h
      by_cases hpass : e.PassesOn chain rates
      · rw [evaluateChains_of_passesOn hchain chains hpass] at h
        exact .next hpass ((ih hchains).mpr h)
      · rw [evaluateChains_of_stop hchain chains hpass] at h
        subst h
        rcases hhead : (e.hits chain.rules rates).head? with _ | rule
        · exact .policy (List.head?_eq_none_iff.mp hhead)
        · refine .rule hhead ?_
          by_contra hnot
          exact hpass ⟨rule, hhead, hnot⟩

end Evaluation

/-! ## The two evaluations -/

namespace Place

/-- The Input chains ahead of the one where the rule is. -/
def inputsAhead (self : Place Rx Ip Net) : List (CompiledChain Rx Ip Net) :=
  self.ahead.filter fun chain => chain.chainType = .input

/-- The Input chains behind it. -/
def inputsBehind (self : Place Rx Ip Net) : List (CompiledChain Rx Ip Net) :=
  self.behind.filter fun chain => chain.chainType = .input

theorem inputsAhead_input {self : Place Rx Ip Net} : ∀ chain ∈ self.inputsAhead, chain.chainType = .input := by
  intro chain hchain
  simpa using (List.mem_filter.mp hchain).2

theorem inputsBehind_input {self : Place Rx Ip Net} : ∀ chain ∈ self.inputsBehind, chain.chainType = .input := by
  intro chain hchain
  simpa using (List.mem_filter.mp hchain).2

variable [DecidableEq Ip] (self : Place Rx Ip Net) (e : Evaluation Rx Tz Ip Net) (defaultPolicy : Policy)
  (rates : RateLimits)

/-- The chains behind answer what the rest of the chain would: its policy, if none of the later rules
    matches; the action of the first that matches, if it is terminal; and if it is not, what they answer
    with the counts that it leaves. -/
inductive Replaced : Prop where
  | policy (hnone : e.hits self.later rates = [])
      (hbehind : e.Answers defaultPolicy self.inputsBehind rates self.chain.policy.result)
  | rule {rule : CompiledRule Rx Ip Net} (hfirst : (e.hits self.later rates).head? = some rule)
      (hterminal : rule.Terminal) (hbehind : e.Answers defaultPolicy self.inputsBehind rates (executeAction rule.action))
  | next {rule : CompiledRule Rx Ip Net} {answer : EvaluationResult}
      (hfirst : (e.hits self.later rates).head? = some rule) (hpass : ¬ rule.Terminal)
      (hbehind : e.Answers defaultPolicy self.inputsBehind rates answer)
      (hleft : e.Answers defaultPolicy self.inputsBehind (e.leave { self.chain with rules := self.later } rates) answer)

/-- The new rule makes no difference: an Input chain ahead does not pass the message on, a rule before it in its
    chain matches, it does not match itself, or the chains behind answer what the rest of its chain would. -/
def Harmless : Prop :=
  let reached := e.entry self.inputsAhead rates
  ¬ e.AtEach e.PassesOn self.inputsAhead rates ∨ e.hits self.earlier reached ≠ [] ∨
    ¬ e.Matches self.rule (e.consult self.earlier reached) ∨
      self.Replaced e defaultPolicy (e.consult self.earlier reached)

variable {self e defaultPolicy rates}

/-- Only the Input chains have a part in the verdict. -/
theorem verdict_withRules (hinput : self.chain.chainType = .input) (rules : List (CompiledRule Rx Ip Net)) :
    e.verdict defaultPolicy (self.withRules rules) rates =
      e.verdict defaultPolicy (self.inputsAhead ++ { self.chain with rules := rules } :: self.inputsBehind) rates := by
  have hfilter : (self.withRules rules).filter (fun chain => chain.chainType = .input) =
      self.inputsAhead ++ { self.chain with rules := rules } :: self.inputsBehind := by
    unfold withRules
    rw [List.filter_append, List.filter_cons_of_pos (by simpa using hinput)]
    rfl
  unfold Evaluation.verdict
  rw [← hfilter, CompiledFirewall.evaluateChains_inputs]

/-- An Input chain ahead that passes nothing on leaves no difference. -/
theorem verdict_stopped (hinput : self.chain.chainType = .input)
    (hstop : ¬ e.AtEach e.PassesOn self.inputsAhead rates) (rules rules' : List (CompiledRule Rx Ip Net)) :
    e.verdict defaultPolicy (self.withRules rules) rates = e.verdict defaultPolicy (self.withRules rules') rates := by
  obtain ⟨result, hresult⟩ := Evaluation.evaluateChains_stops inputsAhead_input hstop
  rcases hahead : evaluateChains e.platform e.lists e.clock e.ctx self.inputsAhead rates with ⟨found, rates'⟩
  rw [hahead] at hresult
  obtain rfl : found = some result := hresult
  rw [verdict_withRules hinput, verdict_withRules hinput]
  unfold Evaluation.verdict
  rw [evaluateChains_append, evaluateChains_append, hahead]

/-- The chain of the rule is reached. -/
theorem verdict_reached (hinput : self.chain.chainType = .input)
    (hpass : e.AtEach e.PassesOn self.inputsAhead rates) (rules : List (CompiledRule Rx Ip Net)) :
    e.verdict defaultPolicy (self.withRules rules) rates =
      e.verdict defaultPolicy ({ self.chain with rules := rules } :: self.inputsBehind)
        (e.entry self.inputsAhead rates) := by
  rw [verdict_withRules hinput]
  unfold Evaluation.verdict
  rw [evaluateChains_append, Evaluation.evaluateChains_passes inputsAhead_input hpass]

/-- A rule that matches before the new one leaves no difference either. -/
theorem verdict_earlier (hinput : self.chain.chainType = .input) (hhits : e.hits self.earlier rates ≠ [])
    (chains : List (CompiledChain Rx Ip Net)) (rules rules' : List (CompiledRule Rx Ip Net)) :
    e.verdict defaultPolicy ({ self.chain with rules := self.earlier ++ rules } :: chains) rates =
      e.verdict defaultPolicy ({ self.chain with rules := self.earlier ++ rules' } :: chains) rates := by
  have hchain : ∀ rules : List (CompiledRule Rx Ip Net),
      { self.chain with rules := rules }.chainType = .input := fun _ => hinput
  obtain ⟨first, hfirst⟩ := Option.ne_none_iff_exists'.mp (List.head?_eq_none_iff.not.mpr hhits)
  have hrules := e.evaluateRules_hits self.earlier rates
  rcases hresult : evaluateRules e.platform e.lists e.clock e.ctx self.earlier rates with ⟨result, rates'⟩
  rw [hresult, hfirst] at hrules
  obtain rfl : result = some (executeAction first.action) := hrules
  unfold Evaluation.verdict
  rw [evaluateChains_input e.platform e.lists e.clock e.ctx (hchain _),
    evaluateChains_input e.platform e.lists e.clock e.ctx (hchain _), evaluateRules_append, evaluateRules_append,
    hresult]

/-- The rules behind are asked when none of the rules before them matches. -/
theorem verdict_asked (hinput : self.chain.chainType = .input) (hnone : e.hits self.earlier rates = [])
    (chains : List (CompiledChain Rx Ip Net)) (rules : List (CompiledRule Rx Ip Net)) :
    e.verdict defaultPolicy ({ self.chain with rules := self.earlier ++ rules } :: chains) rates =
      e.verdict defaultPolicy ({ self.chain with rules := rules } :: chains) (e.consult self.earlier rates) := by
  have hchain : ∀ rules : List (CompiledRule Rx Ip Net),
      { self.chain with rules := rules }.chainType = .input := fun _ => hinput
  unfold Evaluation.verdict
  rw [evaluateChains_input e.platform e.lists e.clock e.ctx (hchain _),
    evaluateChains_input e.platform e.lists e.clock e.ctx (hchain _), evaluateRules_append,
    e.evaluateRules_unmatched hnone]

/-- The chains behind have the verdict of the rest of the chain exactly when they answer what it would. -/
theorem replaced_iff (hinput : self.chain.chainType = .input) :
    e.verdict defaultPolicy self.inputsBehind rates =
        e.verdict defaultPolicy ({ self.chain with rules := self.later } :: self.inputsBehind) rates ↔
      self.Replaced e defaultPolicy rates := by
  have hall : ∀ chain ∈ { self.chain with rules := self.later } :: self.inputsBehind, chain.chainType = .input :=
    List.forall_mem_cons.mpr ⟨hinput, inputsBehind_input⟩
  constructor
  · intro h
    have hbehind := (Evaluation.answers_iff inputsBehind_input).mpr h
    -- the answer of the whole, by what the rest of the chain does
    generalize hanswer : e.verdict defaultPolicy ({ self.chain with rules := self.later } :: self.inputsBehind) rates =
      answer at hbehind
    cases (Evaluation.answers_iff hall).mpr hanswer with
    | rule hfirst hterminal => exact .rule hfirst hterminal hbehind
    | policy hnone => exact .policy hnone hbehind
    | next hpass hnext =>
      obtain ⟨rule, hfirst, hnot⟩ := hpass
      exact .next hfirst hnot hbehind hnext
  · intro h
    cases h with
    | policy hnone hbehind =>
      exact ((Evaluation.answers_iff inputsBehind_input).mp hbehind).trans
        ((Evaluation.answers_iff hall).mp (.policy hnone)).symm
    | rule hfirst hterminal hbehind =>
      exact ((Evaluation.answers_iff inputsBehind_input).mp hbehind).trans
        ((Evaluation.answers_iff hall).mp (.rule hfirst hterminal)).symm
    | next hfirst hpass hbehind hleft =>
      exact ((Evaluation.answers_iff inputsBehind_input).mp hbehind).trans
        ((Evaluation.answers_iff hall).mp (.next ⟨_, hfirst, hpass⟩ hleft)).symm

/-- A rule that matches and is not terminal ends its chain, and the next one has its say. -/
theorem verdict_matched (defaultPolicy : Policy) (hinput : self.chain.chainType = .input)
    (hmatches : e.Matches self.rule rates) (hpass : ¬ self.rule.Terminal) (chains : List (CompiledChain Rx Ip Net)) :
    e.verdict defaultPolicy ({ self.chain with rules := self.rule :: self.later } :: chains) rates =
      e.verdict defaultPolicy chains (e.ask self.rule rates).2 := by
  have hchain : { self.chain with rules := self.rule :: self.later }.chainType = .input := hinput
  have hon : (executeAction self.rule.action).isTerminal = false := Bool.eq_false_iff.mpr hpass
  unfold Evaluation.verdict
  rw [evaluateChains_input e.platform e.lists e.clock e.ctx hchain, e.evaluateRules_cons]
  rcases hask : e.ask self.rule rates with ⟨holds, rates'⟩
  rw [Evaluation.Matches, hask] at hmatches
  obtain rfl : holds = true := hmatches
  simp only [Option.getD_some, hon, Bool.false_eq_true, if_false]

/-- A rule that continues and counts nothing, asked in front of the rest of its chain. -/
theorem verdict_rule_iff (hinput : self.chain.chainType = .input) (henabled : self.rule.enabled = true)
    (haction : executeAction self.rule.action = .continue)
    (hunmetered : ∀ rates,
      (evaluateConditions e.platform e.lists e.clock e.ctx self.rule.conditions rates).2 = rates) :
    e.verdict defaultPolicy ({ self.chain with rules := self.rule :: self.later } :: self.inputsBehind) rates =
        e.verdict defaultPolicy ({ self.chain with rules := self.later } :: self.inputsBehind) rates ↔
      ¬ e.Matches self.rule rates ∨ self.Replaced e defaultPolicy rates := by
  have hchain : ∀ rules : List (CompiledRule Rx Ip Net),
      { self.chain with rules := rules }.chainType = .input := fun _ => hinput
  have hcounts : (e.ask self.rule rates).2 = rates := by
    rw [Evaluation.ask, if_pos henabled]
    exact hunmetered rates
  rcases hask : e.ask self.rule rates with ⟨holds, rates'⟩
  rw [hask] at hcounts
  obtain rfl : rates' = rates := hcounts
  cases holds with
  | false =>
    have hmatches : ¬ e.Matches self.rule rates' := by simp [Evaluation.Matches, hask]
    refine iff_of_true ?_ (Or.inl hmatches)
    unfold Evaluation.verdict
    rw [evaluateChains_input e.platform e.lists e.clock e.ctx (hchain _),
      evaluateChains_input e.platform e.lists e.clock e.ctx (hchain _), e.evaluateRules_cons, hask]
  | true =>
    have hmatches : e.Matches self.rule rates' := by simp [Evaluation.Matches, hask]
    have hpass : ¬ self.rule.Terminal := by
      rw [CompiledRule.Terminal, haction]
      exact Bool.false_ne_true
    -- the chain ends here, and the next one has its say
    have hends := verdict_matched defaultPolicy hinput hmatches hpass self.inputsBehind
    rw [hask] at hends
    rw [hends, replaced_iff hinput]
    simp [hmatches]

/-- **The step lemma**: the same verdict with and without the rule, exactly where it is harmless. -/
theorem verdict_inserted_iff (hinput : self.chain.chainType = .input) (henabled : self.rule.enabled = true)
    (haction : executeAction self.rule.action = .continue)
    (hunmetered : ∀ rates,
      (evaluateConditions e.platform e.lists e.clock e.ctx self.rule.conditions rates).2 = rates) :
    e.verdict defaultPolicy (self.withRules (self.earlier ++ self.rule :: self.later)) rates =
        e.verdict defaultPolicy (self.withRules (self.earlier ++ self.later)) rates ↔
      self.Harmless e defaultPolicy rates := by
  unfold Harmless
  by_cases hpass : e.AtEach e.PassesOn self.inputsAhead rates
  · rw [verdict_reached hinput hpass, verdict_reached hinput hpass]
    by_cases hhits : e.hits self.earlier (e.entry self.inputsAhead rates) = []
    · rw [verdict_asked hinput hhits, verdict_asked hinput hhits,
        verdict_rule_iff hinput henabled haction hunmetered]
      simp [hpass, hhits]
    · exact iff_of_true (verdict_earlier hinput hhits _ _ _) (Or.inr (Or.inl hhits))
  · exact iff_of_true (verdict_stopped hinput hpass _ _) (Or.inl hpass)

end Place

/-- **Where logging is harmless.**  A rule that only logs or marks is put somewhere into an Input chain.  The
    result of every evaluation of the compiled firewalls is the same, with the same lists and the same counts,
    exactly when the firewall is switched off or the rule is harmless where it is. -/
theorem log_rule_harmless_iff [DecidableEq Ip] {platform : Platform Rx Tz Ip Net} {insertion : Insertion}
    (hinput : insertion.chain.chainType = .input) (hlogs : insertion.rule.OnlyLogs)
    {fw fw' : CompiledFirewall Rx Ip Net} (hfw : CompiledFirewall.fromConfig platform insertion.without = .ok fw)
    (hfw' : CompiledFirewall.fromConfig platform insertion.inserted = .ok fw') :
    ∃ place : Place Rx Ip Net, place.Marks platform insertion fw fw' ∧ ∀ lists rates clock ctx,
      (({ fw' with lists := lists, rateLimits := rates }.evaluate platform clock ctx).1 =
          ({ fw with lists := lists, rateLimits := rates }.evaluate platform clock ctx).1 ↔
        insertion.enabled = false ∨
          place.Harmless ⟨platform, lists, clock, ctx⟩ insertion.defaultPolicy rates) := by
  obtain ⟨place, hplace⟩ := exists_place hfw hfw'
  refine ⟨place, hplace, fun lists rates clock ctx => ?_⟩
  obtain ⟨chains, -, hmade⟩ := bind_eq_ok.mp hfw
  obtain ⟨chains', -, hmade'⟩ := bind_eq_ok.mp hfw'
  have henabled : fw.enabled = insertion.enabled ∧ fw'.enabled = insertion.enabled := by
    cases hmade
    cases hmade'
    exact ⟨rfl, rfl⟩
  have hpolicy : fw.defaultPolicy = insertion.defaultPolicy ∧ fw'.defaultPolicy = insertion.defaultPolicy := by
    cases hmade
    cases hmade'
    exact ⟨rfl, rfl⟩
  unfold CompiledFirewall.evaluate
  simp only [henabled.1, henabled.2, hpolicy.1, hpolicy.2, hplace.without, hplace.inserted]
  cases insertion.enabled with
  | false => exact iff_of_true rfl (Or.inl rfl)
  | true =>
    obtain ⟨conditions, hconditions, hrule⟩ := bind_eq_ok.mp hplace.rule
    have hcompiled : place.rule = ⟨insertion.rule.name, insertion.rule.enabled, conditions, insertion.rule.action⟩ :=
      (Except.ok.inj hrule).symm
    have hchainType : place.chain.chainType = insertion.chain.chainType :=
      congrArg CompiledChain.chainType (hplace.chain [])
    have hunmetered : ∀ rates, (evaluateConditions platform lists clock ctx place.rule.conditions rates).2 = rates := by
      intro rates
      rw [hcompiled]
      exact evaluateAll_unmetered platform lists clock ctx _ hlogs.unmetered conditions hconditions rates
    have henabled : place.rule.enabled = true := by
      rw [hcompiled]
      exact hlogs.enabled
    have haction : executeAction place.rule.action = .continue := by
      rw [hcompiled]
      exact executeAction_onlyLogs hlogs.action
    have hverdict : _ ↔ place.Harmless ⟨platform, lists, clock, ctx⟩ insertion.defaultPolicy rates :=
      Place.verdict_inserted_iff (hchainType.trans hinput) henabled haction hunmetered
    simp only [Bool.not_true, Bool.false_eq_true, if_false, Bool.true_eq_false, false_or]
    exact hverdict

/-! ## A chain that drops everything, and one that accepts the rest -/

/-- A rule that logs every message. -/
def logAll : RuleConfig := { name := some "log_all", action := .log .info none none }

theorem logAll_onlyLogs : logAll.OnlyLogs := ⟨rfl, trivial, fun _ h => absurd h List.not_mem_nil⟩

/-- One Input chain, with a log rule between the given rules. -/
def oneChain (earlier later : List RuleConfig) : Insertion :=
  { enabled := true, defaultPolicy := .accept, before := [], chain := { name := "input" }, after := [],
    earlier := earlier, rule := logAll, later := later }

/-- Behind the last rule of the last chain, where everything else is accepted, a log rule is harmless. -/
theorem log_rule_harmless_at_end :
    ∃ fw fw' place, CompiledFirewall.fromConfig .bare (oneChain [{ action := .drop, enabled := false }] []).without =
        .ok fw ∧
      Place.Marks place .bare (oneChain [{ action := .drop, enabled := false }] []) fw fw' ∧
      place.Harmless ⟨.bare, ∅, ⟨0, 0⟩, .new "a" "b" "c" "hello"⟩ .accept ∅ := by
  have hwithout : CompiledFirewall.fromConfig Platform.bare (oneChain [{ action := .drop, enabled := false }] []).without =
      .ok _ := rfl
  obtain ⟨place, hmarks, hiff⟩ := log_rule_harmless_iff rfl logAll_onlyLogs hwithout rfl
  refine ⟨_, _, place, rfl, hmarks, ?_⟩
  exact ((hiff ∅ ∅ ⟨0, 0⟩ (.new "a" "b" "c" "hello")).mp rfl).resolve_left nofun

/-- In front of a rule that drops everything, a log rule lets everything in. -/
theorem log_rule_before_drop :
    logAll.OnlyLogs ∧ ∃ fw fw', CompiledFirewall.fromConfig .bare (oneChain [] [{ action := .drop }]).without = .ok fw ∧
      CompiledFirewall.fromConfig .bare (oneChain [] [{ action := .drop }]).inserted = .ok fw' ∧
      (fw.evaluate .bare ⟨0, 0⟩ (.new "a" "b" "c" "hello")).1 = .drop ∧
      (fw'.evaluate .bare ⟨0, 0⟩ (.new "a" "b" "c" "hello")).1 = .accept :=
  ⟨logAll_onlyLogs, _, _, rfl, rfl, rfl, rfl⟩

end Smppd.Firewall
