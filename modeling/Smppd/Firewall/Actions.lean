/-
  ACTIONS that take no effect: Modify and RateLimit.

  `execute_action` makes a result with the replacements of a Modify rule, and `is_terminal` calls it not terminal.
  So the loop over the chains goes on and forgets it: whatever `evaluate` returns is terminal, or the default policy,
  and never a modification.  A RateLimit rule is "reject if exceeded" in the configuration; `execute_action` has no
  branch for it and continues.  It counts nothing and rejects nothing, and since a rule that matches ends its chain,
  it does not go on with the next rule either.

  `Effective` is when the results are right all the same: a Modify rule never is.  A RateLimit rule is when the chains
  behind answer what it should have answered (`Place.Instead`): Reject with its status, once its limit is exceeded, and
  what the rest of the chain would answer before.  Whether the limit is exceeded is a matter of the messages that came
  to the rule before (`OverLimit`), in any sequence of messages and of lists that are loaded in between.
-/
import Smppd.Lib.Machine
import Smppd.Firewall.LogRules
import Smppd.Firewall.Rates

set_option linter.unusedVariables false

namespace Smppd.Firewall

open Smppd.Store Table Machine

variable {Rx Tz Ip Net : Type} [DecidableEq Ip]

/-! ## What an evaluation answers -/

namespace Evaluation

/-- The chain lets the message by: it passes it on, or nothing in it matches and it accepts. -/
def LetsBy (e : Evaluation Rx Tz Ip Net) (chain : CompiledChain Rx Ip Net) (rates : RateLimits) : Prop :=
  e.PassesOn chain rates ∨ (e.hits chain.rules rates = [] ∧ chain.policy = .accept)

variable {e : Evaluation Rx Tz Ip Net}

/-- Chains that let a message by, but do not all pass it on, accept it. -/
theorem evaluateChains_letsBy {chains : List (CompiledChain Rx Ip Net)}
    (hinput : ∀ chain ∈ chains, chain.chainType = .input) {rates : RateLimits}
    (hby : e.AtEach e.LetsBy chains rates) (hstop : ¬ e.AtEach e.PassesOn chains rates) :
    (evaluateChains e.platform e.lists e.clock e.ctx chains rates).1 = some .accept := by
  induction chains generalizing rates with
  | nil => exact absurd e.atEach_nil hstop
  | cons chain chains ih =>
    obtain ⟨hchain, hchains⟩ := List.forall_mem_cons.mp hinput
    obtain ⟨hfirst, hrest⟩ := e.atEach_cons.mp hby
    by_cases hpass : e.PassesOn chain rates
    · rw [evaluateChains_of_passesOn hchain chains hpass]
      exact ih hchains hrest fun h => hstop (e.atEach_cons.mpr ⟨hpass, h⟩)
    · obtain ⟨hnone, hpolicy⟩ := hfirst.resolve_left hpass
      rw [evaluateChains_of_stop hchain chains hpass, hnone, hpolicy]
      rfl

/-- **What the loop over the chains returns is terminal.** -/
theorem isTerminal_of_evaluateChains {chains : List (CompiledChain Rx Ip Net)} {rates : RateLimits}
    {result : EvaluationResult}
    (h : (evaluateChains e.platform e.lists e.clock e.ctx chains rates).1 = some result) :
    result.isTerminal = true := by
  induction chains generalizing rates with
  | nil => exact absurd h.symm (Option.some_ne_none result)
  | cons chain chains ih =>
    rw [evaluateChains] at h
    split at h
    · exact ih h
    · rcases evaluateChain e.platform e.lists e.clock e.ctx chain rates with ⟨answer, rates'⟩
      simp only at h
      split at h
      · rename_i hterminal
        rw [← Option.some.inj h]
        exact hterminal
      · exact ih h

/-- **A verdict is terminal**, so it modifies nothing. -/
theorem isTerminal_verdict (defaultPolicy : Policy) (chains : List (CompiledChain Rx Ip Net)) (rates : RateLimits) :
    (e.verdict defaultPolicy chains rates).isTerminal = true := by
  rw [verdict]
  rcases hresult : (evaluateChains e.platform e.lists e.clock e.ctx chains rates).1 with _ | result
  · exact isTerminal_policy defaultPolicy
  · exact isTerminal_of_evaluateChains hresult

end Evaluation

/-! ## A rule that is the first to match -/

namespace Place

/-- The counts with which the rule is asked. -/
def asked (self : Place Rx Ip Net) (e : Evaluation Rx Tz Ip Net) (rates : RateLimits) : RateLimits :=
  e.consult self.earlier (e.entry self.inputsAhead rates)

/-- The counts once it was asked. -/
def answered (self : Place Rx Ip Net) (e : Evaluation Rx Tz Ip Net) (rates : RateLimits) : RateLimits :=
  (e.ask self.rule (self.asked e rates)).2

/-- The rule is the first that matches, and the chains ahead let the message by. -/
structure First (place : Place Rx Ip Net) (e : Evaluation Rx Tz Ip Net) (rates : RateLimits) : Prop where
  ahead : e.AtEach e.LetsBy place.inputsAhead rates
  earlier : e.hits place.earlier (e.entry place.inputsAhead rates) = []
  matches_ : e.Matches place.rule (place.asked e rates)

/-- What is answered instead of the rule: what the chains behind answer, or Accept, where a chain ahead accepts. -/
def Instead (self : Place Rx Ip Net) (e : Evaluation Rx Tz Ip Net) (defaultPolicy : Policy) (rates : RateLimits)
    (answer : EvaluationResult) : Prop :=
  (e.AtEach e.PassesOn self.inputsAhead rates ∧
      e.Answers defaultPolicy self.inputsBehind (self.answered e rates) answer) ∨
    (¬ e.AtEach e.PassesOn self.inputsAhead rates ∧ answer = .accept)

variable {self : Place Rx Ip Net} {e : Evaluation Rx Tz Ip Net} {defaultPolicy : Policy} {rates : RateLimits}

/-- **The verdict**, where a rule that is not terminal is the first to match. -/
theorem instead_iff (hinput : self.chain.chainType = .input) (hfirst : self.First e rates)
    (hpass : ¬ self.rule.Terminal) {answer : EvaluationResult} :
    self.Instead e defaultPolicy rates answer ↔
      e.verdict defaultPolicy (self.withRules (self.earlier ++ self.rule :: self.later)) rates = answer := by
  by_cases hahead : e.AtEach e.PassesOn self.inputsAhead rates
  · have hbehind := verdict_matched defaultPolicy hinput hfirst.matches_ hpass self.inputsBehind
    rw [verdict_reached hinput hahead, verdict_asked hinput hfirst.earlier, ← asked, hbehind, ← answered,
      ← Evaluation.answers_iff inputsBehind_input, Instead]
    simp [hahead]
  · have hstop := Evaluation.evaluateChains_letsBy inputsAhead_input hfirst.ahead hahead
    have haccept : e.verdict defaultPolicy (self.withRules (self.earlier ++ self.rule :: self.later)) rates = .accept := by
      rw [verdict_withRules hinput, Evaluation.verdict, evaluateChains_append]
      rcases hresult : evaluateChains e.platform e.lists e.clock e.ctx self.inputsAhead rates with ⟨found, rates'⟩
      rw [hresult] at hstop
      obtain rfl : found = some .accept := hstop
      rfl
    rw [haccept, Instead]
    simp [hahead, eq_comm]

end Place

/-! ## Sequences of messages -/

/-- An evaluation that was made: with which counts it began, and its result. -/
structure Judged (Rx Tz Ip Net : Type) where
  evaluation : Evaluation Rx Tz Ip Net
  rates : RateLimits
  result : EvaluationResult

/-- A firewall, with the evaluations so far. -/
structure Recorded (Rx Tz Ip Net : Type) where
  firewall : CompiledFirewall Rx Ip Net
  log : List (Judged Rx Tz Ip Net)

/-- One event. -/
def Recorded.step (platform : Platform Rx Tz Ip Net) (self : Recorded Rx Tz Ip Net) :
    Event Ip → Option (Recorded Rx Tz Ip Net)
  | .message clock ctx =>
    let (result, firewall) := self.firewall.evaluate platform clock ctx
    some ⟨firewall, self.log ++
      [⟨⟨platform, self.firewall.lists, clock, ctx⟩, self.firewall.rateLimits, result⟩]⟩
  | .loadList name entries => some { self with firewall := self.firewall.loadList name entries }

/-- An evaluation of a firewall that is enabled: a verdict, and new counts. -/
theorem evaluate_enabled {fw : CompiledFirewall Rx Ip Net} (henabled : fw.enabled = true)
    {platform : Platform Rx Tz Ip Net} {clock : Clock} {ctx : EvaluationContext Ip} :
    fw.evaluate platform clock ctx =
      (Evaluation.verdict ⟨platform, fw.lists, clock, ctx⟩ fw.defaultPolicy fw.chains fw.rateLimits,
        { fw with rateLimits := (evaluateChains platform fw.lists clock ctx fw.chains fw.rateLimits).2 }) := by
  rw [CompiledFirewall.evaluate, henabled]
  rfl

/-- **The invariant**: the chains and policies stay, and the results are the verdicts. -/
structure Recorded.Sound (fw : CompiledFirewall Rx Ip Net) (w : Recorded Rx Tz Ip Net) : Prop where
  enabled : w.firewall.enabled = true
  chains : w.firewall.chains = fw.chains
  defaultPolicy : w.firewall.defaultPolicy = fw.defaultPolicy
  results : ∀ m ∈ w.log, m.result = m.evaluation.verdict fw.defaultPolicy fw.chains m.rates

theorem Recorded.Sound.step {platform : Platform Rx Tz Ip Net} {fw : CompiledFirewall Rx Ip Net}
    {w w' : Recorded Rx Tz Ip Net} {event : Event Ip} (h : w.Sound fw) (hstep : w.step platform event = some w') :
    w'.Sound fw := by
  cases event with
  | loadList name entries =>
    obtain rfl := Option.some.inj hstep
    exact ⟨h.enabled, h.chains, h.defaultPolicy, h.results⟩
  | message clock ctx =>
    rw [Recorded.step, evaluate_enabled h.enabled] at hstep
    obtain rfl := Option.some.inj hstep
    refine ⟨h.enabled, h.chains, h.defaultPolicy, fun m hm => ?_⟩
    rcases List.mem_append.mp hm with hm | hm
    · exact h.results m hm
    · rw [List.mem_singleton.mp hm, h.chains, h.defaultPolicy]

/-- **The run lemma.** -/
theorem Recorded.Sound.run {platform : Platform Rx Tz Ip Net} {config : FirewallConfig}
    {fw : CompiledFirewall Rx Ip Net} (hfw : CompiledFirewall.fromConfig platform config = .ok fw)
    (henabled : config.enabled = true) {events : List (Event Ip)} {w : Recorded Rx Tz Ip Net}
    (hrun : run (Recorded.step platform) ⟨fw, []⟩ events = some w) : w.Sound fw := by
  have hfresh : (⟨fw, []⟩ : Recorded Rx Tz Ip Net).Sound fw := by
    obtain ⟨chains, -, hmade⟩ := Fallible.bind_eq_ok.mp hfw
    cases hmade
    exact ⟨henabled, rfl, rfl, fun m hm => absurd hm List.not_mem_nil⟩
  exact run_inv (fun _ _ _ h hstep => h.step hstep) hfresh hrun

/-! ## What actions should do -/

namespace Place

variable (self : Place Rx Ip Net) (defaultPolicy : Policy) (before : List (Judged Rx Tz Ip Net))
  (m : Judged Rx Tz Ip Net)

/-- As many messages as the limit allows came to the rule before, with the value of this one and within the window. -/
def OverLimit (key : RateKey) (window : Duration) (limit : UInt64) : Prop :=
  ∃ earlier : List (Judged Rx Tz Ip Net), earlier.Sublist before ∧ earlier.length = limit.toNat ∧
    ∀ b ∈ earlier, self.First b.evaluation b.rates ∧
      b.evaluation.ctx.getRateKey b.evaluation.platform key = m.evaluation.ctx.getRateKey m.evaluation.platform key ∧
      elapsed m.evaluation.clock b.evaluation.clock.now < window

/-- What is expected of the action of the rule, when the rule is the first that matches: that Modify gives its
    replacements; and that RateLimit rejects with its status when its limit is exceeded, and otherwise goes on with
    the next rule. -/
def TakesEffect : Prop :=
  match self.rule.action with
  | .modify setSource setDestination setContent _ _ => m.result = .modify setSource setDestination setContent
  | .rateLimit key window limit status =>
    (self.OverLimit before m key window limit → ∃ reason, m.result = .reject status reason) ∧
      (¬ self.OverLimit before m key window limit →
        m.result = m.evaluation.verdict defaultPolicy ({ self.chain with rules := self.later } :: self.inputsBehind)
          (self.answered m.evaluation m.rates))
  | _ => True

/-- What it takes: the rule does not modify; and if it limits a rate, then Reject with its status is answered instead
    of it once its limit is exceeded, and before, what the later rules and the chains behind would answer. -/
def Effective : Prop :=
  match self.rule.action with
  | .modify _ _ _ _ _ => False
  | .rateLimit key window limit status =>
    (self.OverLimit before m key window limit →
        ∃ reason, self.Instead m.evaluation defaultPolicy m.rates (.reject status reason)) ∧
      (¬ self.OverLimit before m key window limit → ∃ answer,
        self.Instead m.evaluation defaultPolicy m.rates answer ∧
          m.evaluation.Answers defaultPolicy ({ self.chain with rules := self.later } :: self.inputsBehind)
            (self.answered m.evaluation m.rates) answer)
  | _ => True

variable {self defaultPolicy before m}

/-- **The step lemma**, for one message and its verdict. -/
theorem takesEffect_iff (hinput : self.chain.chainType = .input) (hfirst : self.First m.evaluation m.rates)
    (hresult : m.result = m.evaluation.verdict defaultPolicy
      (self.withRules (self.earlier ++ self.rule :: self.later)) m.rates) :
    self.TakesEffect defaultPolicy before m ↔ self.Effective defaultPolicy before m := by
  have hrest : ∀ chain ∈ { self.chain with rules := self.later } :: self.inputsBehind, chain.chainType = .input :=
    List.forall_mem_cons.mpr ⟨hinput, inputsBehind_input⟩
  cases haction : self.rule.action with
  | modify setSource setDestination setContent prependContent appendContent =>
    simp only [TakesEffect, Effective, haction, iff_false]
    intro h
    have hterminal := m.evaluation.isTerminal_verdict defaultPolicy
      (self.withRules (self.earlier ++ self.rule :: self.later)) m.rates
    rw [← hresult, h] at hterminal
    exact Bool.false_ne_true hterminal
  | rateLimit key window limit status =>
    have hpass : ¬ self.rule.Terminal := by
      rw [CompiledRule.Terminal, haction]
      exact Bool.false_ne_true
    have hinstead : ∀ answer, self.Instead m.evaluation defaultPolicy m.rates answer ↔ m.result = answer :=
      fun answer => (instead_iff hinput hfirst hpass).trans (by rw [hresult])
    simp only [TakesEffect, Effective, haction]
    refine and_congr (imp_congr_right fun _ => exists_congr fun reason => (hinstead _).symm)
      (imp_congr_right fun _ => ?_)
    constructor
    · intro h
      exact ⟨m.result, (hinstead _).mpr rfl, (Evaluation.answers_iff hrest).mpr h.symm⟩
    · rintro ⟨answer, hanswer, hwould⟩
      rw [(hinstead _).mp hanswer]
      exact ((Evaluation.answers_iff hrest).mp hwould).symm
  | _ => simp only [TakesEffect, Effective, haction]

end Place

/-- **Matched actions take effect**, in any sequence of messages and of lists that are loaded in between, for every
    message whose first matching rule is the one at a place: exactly when that is `Effective`. -/
theorem actions_take_effect_iff {platform : Platform Rx Tz Ip Net} {config : FirewallConfig}
    {fw : CompiledFirewall Rx Ip Net} (hfw : CompiledFirewall.fromConfig platform config = .ok fw)
    (henabled : config.enabled = true) {events : List (Event Ip)} {w : Recorded Rx Tz Ip Net}
    (hrun : run (Recorded.step platform) ⟨fw, []⟩ events = some w) {before after : List (Judged Rx Tz Ip Net)}
    {m : Judged Rx Tz Ip Net} (hlog : w.log = before ++ m :: after) {place : Place Rx Ip Net}
    (hplace : fw.chains = place.withRules (place.earlier ++ place.rule :: place.later))
    (hinput : place.chain.chainType = .input) (hfirst : place.First m.evaluation m.rates) :
    place.TakesEffect fw.defaultPolicy before m ↔ place.Effective fw.defaultPolicy before m := by
  have hm : m ∈ w.log := hlog ▸ List.mem_append_right _ List.mem_cons_self
  have hresult := (Recorded.Sound.run hfw henabled hrun).results m hm
  rw [hplace] at hresult
  exact Place.takesEffect_iff hinput hfirst hresult

/-! ## One rule that limits, and one that modifies -/

/-- One message of a source in a minute. -/
def limitSource : ActionConfig := .rateLimit .source (fromSecs 60) 1 88

/-- Another sender. -/
def setSender : ActionConfig := .modify (some "shop") none none none none

/-- The place of a rule that is the only one and matches everything. -/
def onlyRule (action : ActionConfig) : Place Empty String Empty :=
  { ahead := [], chain := ⟨"input", .input, 0, .accept, []⟩, behind := [], earlier := [],
    rule := ⟨none, true, [], action⟩, later := [] }

theorem onlyRule_first (action : ActionConfig) (e : Evaluation Empty Unit String Empty) (rates : RateLimits) :
    (onlyRule action).First e rates := ⟨e.atEach_nil, rfl, rfl⟩

/-- Where everything is accepted anyway, the first message of a source is treated as it should be. -/
theorem first_message_within_limit :
    ∃ fw w m, CompiledFirewall.fromConfig .bare (oneChainConfig [{ action := limitSource }]) = .ok fw ∧
      run (Recorded.step .bare) ⟨fw, []⟩ [.message ⟨0, 0⟩ (fromSource "a")] = some w ∧ w.log = [m] ∧
      (onlyRule limitSource).TakesEffect fw.defaultPolicy [] m := by
  have hiff : ∀ fw w m, CompiledFirewall.fromConfig .bare (oneChainConfig [{ action := limitSource }]) = .ok fw →
      run (Recorded.step .bare) ⟨fw, []⟩ [.message ⟨0, 0⟩ (fromSource "a")] = some w → w.log = [] ++ m :: [] →
        fw.chains = (onlyRule limitSource).withRules [(onlyRule limitSource).rule] →
          ((onlyRule limitSource).TakesEffect fw.defaultPolicy [] m ↔
            (onlyRule limitSource).Effective fw.defaultPolicy [] m) :=
    fun _ _ _ hfw hrun hlog hplace =>
      actions_take_effect_iff hfw rfl hrun hlog hplace rfl (onlyRule_first limitSource _ _)
  refine ⟨_, _, _, rfl, rfl, rfl, (hiff _ _ _ rfl rfl rfl rfl).mpr ⟨?_, fun _ => ?_⟩⟩
  · rintro ⟨earlier, hsub, hlength, -⟩
    rw [List.sublist_nil.mp hsub] at hlength
    exact absurd hlength (by decide)
  · exact ⟨.accept, Or.inl ⟨Evaluation.atEach_nil _, .default⟩, .policy rfl⟩

/-- **The second message of a source is accepted, and the sender stays what it was.** -/
theorem limit_and_modify_forgotten :
    (∃ fw w m m', CompiledFirewall.fromConfig .bare (oneChainConfig [{ action := limitSource }]) = .ok fw ∧
        run (Recorded.step .bare) ⟨fw, []⟩
          [.message ⟨0, 0⟩ (fromSource "a"), .message ⟨10, 10⟩ (fromSource "a")] = some w ∧
        w.log = [m, m'] ∧ (onlyRule limitSource).First m'.evaluation m'.rates ∧
        ¬ (onlyRule limitSource).TakesEffect fw.defaultPolicy [m] m') ∧
      ∃ fw w m, CompiledFirewall.fromConfig .bare (oneChainConfig [{ action := setSender }]) = .ok fw ∧
        run (Recorded.step .bare) ⟨fw, []⟩ [.message ⟨0, 0⟩ (fromSource "a")] = some w ∧ w.log = [m] ∧
        (onlyRule setSender).First m.evaluation m.rates ∧
        ¬ (onlyRule setSender).TakesEffect fw.defaultPolicy [] m := by
  constructor
  · refine ⟨_, _, _, _, rfl, rfl, rfl, onlyRule_first limitSource _ _, fun h => ?_⟩
    obtain ⟨reason, hreject⟩ := h.1 ⟨_, List.Sublist.refl _, rfl, fun b hb => by
      rw [List.mem_singleton.mp hb]
      exact ⟨onlyRule_first limitSource _ _, rfl, by decide⟩⟩
    cases hreject
  · refine ⟨_, _, _, rfl, rfl, rfl, onlyRule_first setSender _ _, fun h => ?_⟩
    cases h

end Smppd.Firewall
