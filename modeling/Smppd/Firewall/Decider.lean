/-
  WHO DECIDES: which rule or which policy a verdict comes from.

  The default policy is documented as the one for when no rules match, and chains are evaluated in order of
  priority.  But every chain has a policy of its own, Accept unless it says otherwise, and a policy is always
  terminal: a chain in which nothing matches ENDS the evaluation.  A chain in which something matches ends
  there too, and goes on to the next chain only when the action of the rule is not terminal.

  `decider` follows the loops of `evaluate` and names the place where they stop (`evaluate_eq_outcome`).
  `AllConsulted` is what one expects of a list of chains, and `Consults` what it takes.  Whether a rule matches
  can depend on the counts, so every rule is asked in its TURN: the rules of a chain one after the other, and a
  chain with the counts that the evaluation leaves in the chain before.
-/
import Smppd.Firewall.Engine

set_option linter.unusedVariables false

namespace Smppd.Firewall

open Smppd.Store Table Fallible

variable {Rx Tz Ip Net : Type}

/-- One evaluation: what is evaluated, and with what. -/
structure Evaluation (Rx Tz Ip Net : Type) where
  platform : Platform Rx Tz Ip Net
  lists : Lists
  clock : Clock
  ctx : EvaluationContext Ip

/-- The action of the rule decides a message. -/
def CompiledRule.Terminal (rule : CompiledRule Rx Ip Net) : Prop := (executeAction rule.action).isTerminal = true

/-- The action of the rule is Drop or Reject. -/
def CompiledRule.Blocks (rule : CompiledRule Rx Ip Net) : Prop :=
  rule.action = .drop ∨ ∃ status reason, rule.action = .reject status reason

theorem CompiledRule.Blocks.terminal {rule : CompiledRule Rx Ip Net} (h : rule.Blocks) : rule.Terminal := by
  unfold CompiledRule.Terminal
  rcases h with h | ⟨status, reason, h⟩
  · rw [h]
    rfl
  · rw [h]
    rfl

/-- Where a verdict comes from. -/
inductive Decider where
  /-- The rule at a place in the chain at a place. -/
  | rule (chain place : Nat)
  /-- The policy of the chain at a place. -/
  | policy (chain : Nat)
  /-- The default policy. -/
  | default
  deriving DecidableEq

/-- The same, seen from one chain earlier. -/
def Decider.next : Decider → Decider
  | .rule chain place => .rule (chain + 1) place
  | .policy chain => .policy (chain + 1)
  | .default => .default

/-- The same, seen from some chains earlier. -/
def Decider.shift (n : Nat) : Decider → Decider
  | .rule chain place => .rule (chain + n) place
  | .policy chain => .policy (chain + n)
  | .default => .default

theorem Decider.shift_succ (n : Nat) (d : Decider) : d.shift (n + 1) = (d.shift n).next := by cases d <;> rfl

theorem Decider.next_injective : Function.Injective Decider.next := by
  intro d d' h
  cases d <;> cases d' <;> simp_all [Decider.next]

/-- The verdict that comes from there. -/
def Decider.outcome (chains : List (CompiledChain Rx Ip Net)) (defaultPolicy : Policy) :
    Decider → Option EvaluationResult
  | .rule chain place => (chains[chain]?.bind fun c => c.rules[place]?).map fun r => executeAction r.action
  | .policy chain => chains[chain]?.map fun c => c.policy.result
  | .default => some defaultPolicy.result

theorem Decider.outcome_next (chain : CompiledChain Rx Ip Net) (chains : List (CompiledChain Rx Ip Net))
    (defaultPolicy : Policy) (d : Decider) :
    d.next.outcome (chain :: chains) defaultPolicy = d.outcome chains defaultPolicy := by
  cases d <;> rfl

namespace Evaluation

variable [DecidableEq Ip] (e : Evaluation Rx Tz Ip Net)

/-! ## Asking the rules -/

/-- The conditions of a rule, with the counts after they were asked. -/
def ask (rule : CompiledRule Rx Ip Net) (rates : RateLimits) : Bool × RateLimits :=
  if rule.enabled then evaluateConditions e.platform e.lists e.clock e.ctx rule.conditions rates else (false, rates)

/-- The rule is enabled and its conditions hold. -/
def Matches (rule : CompiledRule Rx Ip Net) (rates : RateLimits) : Prop := (e.ask rule rates).1 = true

/-- The counts once the rules were all asked. -/
def consult : List (CompiledRule Rx Ip Net) → RateLimits → RateLimits
  | [], rates => rates
  | rule :: rules, rates => consult rules (e.ask rule rates).2

/-- The rules that match when all are asked. -/
def hits : List (CompiledRule Rx Ip Net) → RateLimits → List (CompiledRule Rx Ip Net)
  | [], _ => []
  | rule :: rules, rates =>
    match e.ask rule rates with
    | (true, rates) => rule :: hits rules rates
    | (false, rates) => hits rules rates

/-- The first rule that matches, with its place. -/
def firstMatch : List (CompiledRule Rx Ip Net) → RateLimits → Option (Nat × CompiledRule Rx Ip Net)
  | [], _ => none
  | rule :: rules, rates =>
    match e.ask rule rates with
    | (true, _) => some (0, rule)
    | (false, rates) => (firstMatch rules rates).map fun m => (m.1 + 1, m.2)

/-- The counts that the evaluation leaves in a chain. -/
def leave (chain : CompiledChain Rx Ip Net) (rates : RateLimits) : RateLimits :=
  (evaluateRules e.platform e.lists e.clock e.ctx chain.rules rates).2

/-- The counts with which it gets to the chain behind the given ones. -/
def entry : List (CompiledChain Rx Ip Net) → RateLimits → RateLimits
  | [], rates => rates
  | chain :: chains, rates => entry chains (e.leave chain rates)

theorem evaluateRules_cons (rule : CompiledRule Rx Ip Net) (rules : List (CompiledRule Rx Ip Net))
    (rates : RateLimits) :
    evaluateRules e.platform e.lists e.clock e.ctx (rule :: rules) rates =
      match e.ask rule rates with
      | (true, rates) => (some (executeAction rule.action), rates)
      | (false, rates) => evaluateRules e.platform e.lists e.clock e.ctx rules rates := by
  rw [evaluateRules, ask]
  cases rule.enabled <;> rfl

/-- The loop over the rules of a chain answers what the first rule that matches answers. -/
theorem evaluateRules_eq (rules : List (CompiledRule Rx Ip Net)) (rates : RateLimits) :
    (evaluateRules e.platform e.lists e.clock e.ctx rules rates).1 =
      (e.firstMatch rules rates).map fun m => executeAction m.2.action := by
  induction rules generalizing rates with
  | nil => rfl
  | cons rule rules ih =>
    rw [evaluateRules_cons, firstMatch]
    rcases e.ask rule rates with ⟨holds, rates'⟩
    cases holds with
    | true => rfl
    | false =>
      show (evaluateRules e.platform e.lists e.clock e.ctx rules rates').1 = _
      rw [ih, Option.map_map]
      rfl

theorem firstMatch_snd (rules : List (CompiledRule Rx Ip Net)) (rates : RateLimits) :
    (e.firstMatch rules rates).map Prod.snd = (e.hits rules rates).head? := by
  induction rules generalizing rates with
  | nil => rfl
  | cons rule rules ih =>
    rw [firstMatch, hits]
    rcases e.ask rule rates with ⟨holds, rates'⟩
    cases holds with
    | true => rfl
    | false =>
      rw [← ih, Option.map_map]
      rfl

theorem evaluateRules_hits (rules : List (CompiledRule Rx Ip Net)) (rates : RateLimits) :
    (evaluateRules e.platform e.lists e.clock e.ctx rules rates).1 =
      (e.hits rules rates).head?.map fun r => executeAction r.action := by
  rw [evaluateRules_eq, ← firstMatch_snd, Option.map_map]
  rfl

theorem firstMatch_eq_none (rules : List (CompiledRule Rx Ip Net)) (rates : RateLimits) :
    e.firstMatch rules rates = none ↔ e.hits rules rates = [] := by
  rw [← List.head?_eq_none_iff, ← firstMatch_snd, Option.map_eq_none_iff]

/-- The loop over rules of which none matches asks them all. -/
theorem evaluateRules_unmatched {rules : List (CompiledRule Rx Ip Net)} {rates : RateLimits}
    (hnone : e.hits rules rates = []) :
    evaluateRules e.platform e.lists e.clock e.ctx rules rates = (none, e.consult rules rates) := by
  induction rules generalizing rates with
  | nil => rfl
  | cons rule rules ih =>
    rw [hits] at hnone
    rw [evaluateRules_cons, consult]
    rcases hask : e.ask rule rates with ⟨holds, rates'⟩
    rw [hask] at hnone
    cases holds with
    | true => cases hnone
    | false => exact ih hnone

/-- A rule that matches in its turn is the first exactly when nothing before it matches. -/
theorem firstMatch_place {earlier later : List (CompiledRule Rx Ip Net)} {rule : CompiledRule Rx Ip Net}
    {rates : RateLimits} (hmatches : e.Matches rule (e.consult earlier rates)) :
    e.firstMatch (earlier ++ rule :: later) rates = some (earlier.length, rule) ↔ e.hits earlier rates = [] := by
  induction earlier generalizing rates with
  | nil =>
    refine iff_of_true ?_ rfl
    change (e.ask rule rates).1 = true at hmatches
    rw [List.nil_append, firstMatch]
    rcases hask : e.ask rule rates with ⟨holds, rates'⟩
    rw [hask] at hmatches
    obtain rfl : holds = true := hmatches
    rfl
  | cons first earlier ih =>
    rw [consult] at hmatches
    rw [List.cons_append, firstMatch, hits]
    rcases hask : e.ask first rates with ⟨holds, rates'⟩
    rw [hask] at hmatches
    cases holds with
    | true =>
      refine iff_of_false ?_ (List.cons_ne_nil _ _)
      intro h
      simp only [Option.some.injEq, Prod.mk.injEq, List.length_cons] at h
      omega
    | false =>
      show (e.firstMatch (earlier ++ rule :: later) rates').map (fun m => (m.1 + 1, m.2)) =
        some (earlier.length + 1, rule) ↔ e.hits earlier rates' = []
      rw [← ih hmatches]
      rcases e.firstMatch (earlier ++ rule :: later) rates' with _ | ⟨place, found⟩ <;> simp

/-- The place of the first match tells that nothing before it matches. -/
theorem hits_of_firstMatch {earlier rest : List (CompiledRule Rx Ip Net)} {found : CompiledRule Rx Ip Net}
    {rates : RateLimits} (h : e.firstMatch (earlier ++ rest) rates = some (earlier.length, found)) :
    e.hits earlier rates = [] := by
  induction earlier generalizing rates with
  | nil => rfl
  | cons first earlier ih =>
    rw [List.cons_append, firstMatch] at h
    rw [hits]
    rcases hask : e.ask first rates with ⟨holds, rates'⟩
    rw [hask] at h
    cases holds with
    | true =>
      simp only [Option.some.injEq, Prod.mk.injEq, List.length_cons] at h
      omega
    | false =>
      obtain ⟨m, hm, heq⟩ := Option.map_eq_some_iff.mp h
      simp only [List.length_cons, Prod.mk.injEq, Nat.add_right_cancel_iff] at heq
      have hrest : e.firstMatch (earlier ++ rest) rates' = some (earlier.length, found) := by
        rw [hm, ← heq.1, ← heq.2]
      exact ih hrest

/-- The first match is where `firstMatch` says it is. -/
theorem getElem?_of_firstMatch {rules : List (CompiledRule Rx Ip Net)} {rates : RateLimits} {place : Nat}
    {rule : CompiledRule Rx Ip Net} (h : e.firstMatch rules rates = some (place, rule)) : rules[place]? = some rule := by
  induction rules generalizing rates place with
  | nil => cases h
  | cons first rules ih =>
    rw [firstMatch] at h
    rcases hask : e.ask first rates with ⟨holds, rates'⟩
    rw [hask] at h
    cases holds with
    | true =>
      simp only [Option.some.injEq, Prod.mk.injEq] at h
      obtain ⟨rfl, rfl⟩ := h
      rfl
    | false =>
      obtain ⟨m, hm, heq⟩ := Option.map_eq_some_iff.mp h
      simp only [Prod.mk.injEq] at heq
      obtain ⟨rfl, rfl⟩ := heq
      rw [List.getElem?_cons_succ]
      exact ih hm

/-! ## Following the loops -/

/-- Where the loop over the Input chains stops. -/
def decider : List (CompiledChain Rx Ip Net) → RateLimits → Decider
  | [], _ => .default
  | chain :: chains, rates =>
    match e.firstMatch chain.rules rates with
    | some (place, rule) =>
      if (executeAction rule.action).isTerminal then .rule 0 place
      else (decider chains (e.leave chain rates)).next
    | none => .policy 0

theorem isTerminal_policy (policy : Policy) : policy.result.isTerminal = true := by cases policy <;> rfl

/-- **The verdict comes from where the loop stops.** -/
theorem evaluateChains_eq_outcome {chains : List (CompiledChain Rx Ip Net)}
    (hinput : ∀ chain ∈ chains, chain.chainType = .input) (defaultPolicy : Policy) (rates : RateLimits) :
    (e.decider chains rates).outcome chains defaultPolicy =
      some ((evaluateChains e.platform e.lists e.clock e.ctx chains rates).1.getD defaultPolicy.result) := by
  induction chains generalizing rates with
  | nil => rfl
  | cons chain chains ih =>
    obtain ⟨hchain, hchains⟩ := List.forall_mem_cons.mp hinput
    have hrules := e.evaluateRules_eq chain.rules rates
    rw [evaluateChains_input e.platform e.lists e.clock e.ctx hchain, decider, leave]
    rcases hresult : evaluateRules e.platform e.lists e.clock e.ctx chain.rules rates with ⟨result, rates'⟩
    rw [hresult] at hrules
    rcases hfirst : e.firstMatch chain.rules rates with _ | ⟨place, rule⟩
    · rw [hfirst] at hrules
      obtain rfl : result = none := hrules
      simp only [Option.getD_none, isTerminal_policy, if_true, Option.getD_some]
      rfl
    · rw [hfirst] at hrules
      obtain rfl : result = some (executeAction rule.action) := hrules
      simp only [Option.getD_some]
      split
      · -- the rule is where `firstMatch` says it is
        have hplace := e.getElem?_of_firstMatch hfirst
        show ((chain :: chains)[0]?.bind fun c => c.rules[place]?).map _ = _
        rw [List.getElem?_cons_zero, Option.bind_some, hplace]
        rfl
      · rw [Decider.outcome_next]
        exact ih hchains rates'

/-- A condition on every chain of a list, with the counts with which the evaluation gets to it. -/
def AtEach (P : CompiledChain Rx Ip Net → RateLimits → Prop) (chains : List (CompiledChain Rx Ip Net))
    (rates : RateLimits) : Prop :=
  ∀ before chain after, chains = before ++ chain :: after → P chain (e.entry before rates)

theorem atEach_nil {P : CompiledChain Rx Ip Net → RateLimits → Prop} {rates : RateLimits} : e.AtEach P [] rates :=
  fun before chain after heq => absurd heq.symm (List.append_ne_nil_of_right_ne_nil _ (List.cons_ne_nil _ _))

theorem atEach_cons {P : CompiledChain Rx Ip Net → RateLimits → Prop} {chain : CompiledChain Rx Ip Net}
    {chains : List (CompiledChain Rx Ip Net)} {rates : RateLimits} :
    e.AtEach P (chain :: chains) rates ↔ P chain rates ∧ e.AtEach P chains (e.leave chain rates) := by
  constructor
  · intro h
    refine ⟨h [] chain chains rfl, fun before c after heq => ?_⟩
    exact h (chain :: before) c after (by rw [heq]; rfl)
  · rintro ⟨hfirst, hrest⟩ before c after heq
    cases before with
    | nil =>
      obtain ⟨rfl, -⟩ := List.cons.inj heq
      exact hfirst
    | cons b before =>
      obtain ⟨rfl, htail⟩ := List.cons.inj heq
      exact hrest before c after htail

/-- The first rule of the chain that matches has an action that is not terminal. -/
def PassesOn (chain : CompiledChain Rx Ip Net) (rates : RateLimits) : Prop :=
  ∃ rule, (e.hits chain.rules rates).head? = some rule ∧ ¬ rule.Terminal

/-- One step of the loop. -/
theorem decider_cons (chain : CompiledChain Rx Ip Net) (chains : List (CompiledChain Rx Ip Net))
    (rates : RateLimits) :
    (e.PassesOn chain rates ∧ e.decider (chain :: chains) rates = (e.decider chains (e.leave chain rates)).next) ∨
      (¬ e.PassesOn chain rates ∧ ((∃ place rule, e.firstMatch chain.rules rates = some (place, rule) ∧
        rule.Terminal ∧ e.decider (chain :: chains) rates = .rule 0 place) ∨
        (e.firstMatch chain.rules rates = none ∧ e.decider (chain :: chains) rates = .policy 0))) := by
  have hsnd := e.firstMatch_snd chain.rules rates
  unfold PassesOn
  rw [decider, ← hsnd]
  rcases e.firstMatch chain.rules rates with _ | ⟨place, rule⟩
  · right
    simp
  · by_cases hterm : rule.Terminal
    · right
      have hstop : (executeAction rule.action).isTerminal = true := hterm
      simp [hstop, hterm]
    · left
      have hon : (executeAction rule.action).isTerminal = false := by
        simpa [CompiledRule.Terminal] using hterm
      simp [hon, hterm]

/-- **What decides behind some chains** decides exactly when they all pass the message on. -/
theorem decider_append_iff {ahead rest : List (CompiledChain Rx Ip Net)} {rates : RateLimits} {d : Decider} :
    e.decider (ahead ++ rest) rates = d.shift ahead.length ↔
      e.AtEach e.PassesOn ahead rates ∧ e.decider rest (e.entry ahead rates) = d := by
  induction ahead generalizing rates with
  | nil =>
    have hshift : d.shift 0 = d := by cases d <;> rfl
    rw [List.nil_append, and_iff_right e.atEach_nil, entry, List.length_nil, hshift]
  | cons first ahead ih =>
    rw [List.cons_append, atEach_cons, entry, List.length_cons, Decider.shift_succ]
    rcases e.decider_cons first (ahead ++ rest) rates with ⟨hpass, hnext⟩ | ⟨hstop, hstops⟩
    · rw [hnext, and_iff_right hpass, ← ih, Decider.next_injective.eq_iff]
    · -- the loop stops in the first chain
      refine iff_of_false ?_ fun h => hstop h.1.1
      rcases hstops with ⟨p, rule, -, -, hd⟩ | ⟨-, hd⟩
      · rw [hd]
        cases d <;> simp [Decider.shift, Decider.next]
      · rw [hd]
        cases d <;> simp [Decider.shift, Decider.next]

/-- A rule decides exactly when the chains ahead all pass the message on, and it is the first of its chain
    that matches and is terminal. -/
theorem decider_eq_rule_iff {ahead behind : List (CompiledChain Rx Ip Net)} {chain : CompiledChain Rx Ip Net}
    {rates : RateLimits} {place : Nat} :
    e.decider (ahead ++ chain :: behind) rates = .rule ahead.length place ↔
      e.AtEach e.PassesOn ahead rates ∧
        ∃ rule, e.firstMatch chain.rules (e.entry ahead rates) = some (place, rule) ∧ rule.Terminal := by
  have hshift : Decider.rule ahead.length place = (Decider.rule 0 place).shift ahead.length := by
    rw [Decider.shift, Nat.zero_add]
  rw [hshift, decider_append_iff]
  refine and_congr_right fun _ => ?_
  rcases e.decider_cons chain behind (e.entry ahead rates) with ⟨⟨first, hhead, hnot⟩, hnext⟩ | ⟨-, ⟨p, rule, hfirst,
    hterm, hd⟩ | ⟨hfirst, hd⟩⟩
  · refine iff_of_false ?_ ?_
    · rw [hnext]
      cases e.decider behind (e.leave chain (e.entry ahead rates)) <;> simp [Decider.next]
    · rintro ⟨rule, hfirst, hterm⟩
      rw [← e.firstMatch_snd, hfirst] at hhead
      obtain rfl : rule = first := Option.some.inj hhead
      exact hnot hterm
  · rw [hd, hfirst]
    simp only [Decider.rule.injEq, true_and, Option.some.injEq, Prod.mk.injEq]
    constructor
    · rintro rfl
      exact ⟨rule, ⟨rfl, rfl⟩, hterm⟩
    · rintro ⟨r, ⟨hp, -⟩, -⟩
      exact hp
  · rw [hd, hfirst]
    simp

/-- The policy of a chain decides exactly when the chains ahead all pass the message on and nothing in the
    chain matches. -/
theorem decider_eq_policy_iff {ahead behind : List (CompiledChain Rx Ip Net)} {chain : CompiledChain Rx Ip Net}
    {rates : RateLimits} :
    e.decider (ahead ++ chain :: behind) rates = .policy ahead.length ↔
      e.AtEach e.PassesOn ahead rates ∧ e.hits chain.rules (e.entry ahead rates) = [] := by
  have hshift : Decider.policy ahead.length = (Decider.policy 0).shift ahead.length := by
    rw [Decider.shift, Nat.zero_add]
  rw [hshift, decider_append_iff, ← firstMatch_eq_none]
  refine and_congr_right fun _ => ?_
  rcases e.decider_cons chain behind (e.entry ahead rates) with ⟨⟨first, hhead, hnot⟩, hnext⟩ | ⟨-, ⟨p, rule, hfirst,
    hterm, hd⟩ | ⟨hfirst, hd⟩⟩
  · refine iff_of_false ?_ ?_
    · rw [hnext]
      cases e.decider behind (e.leave chain (e.entry ahead rates)) <;> simp [Decider.next]
    · intro hfirst
      rw [← e.firstMatch_snd, hfirst] at hhead
      cases hhead
  · rw [hd, hfirst]
    simp
  · exact iff_of_true hd hfirst

end Evaluation

/-! ## Are all chains consulted? -/

namespace CompiledFirewall

/-- The Input chains, in the order in which they are evaluated. -/
def inputs (self : CompiledFirewall Rx Ip Net) : List (CompiledChain Rx Ip Net) :=
  self.chains.filter fun chain => chain.chainType = .input

variable [DecidableEq Ip]

/-- Only the Input chains are evaluated. -/
theorem evaluateChains_inputs (e : Evaluation Rx Tz Ip Net) (chains : List (CompiledChain Rx Ip Net))
    (rates : RateLimits) :
    evaluateChains e.platform e.lists e.clock e.ctx (chains.filter fun chain => chain.chainType = .input) rates =
      evaluateChains e.platform e.lists e.clock e.ctx chains rates := by
  induction chains generalizing rates with
  | nil => rfl
  | cons chain chains ih =>
    by_cases hinput : chain.chainType = .input
    · rw [List.filter_cons_of_pos (by simpa using hinput),
        evaluateChains_input e.platform e.lists e.clock e.ctx hinput,
        evaluateChains_input e.platform e.lists e.clock e.ctx hinput]
      simp only [ih]
    · rw [List.filter_cons_of_neg (by simpa using hinput), ih]
      rw [evaluateChains, if_pos hinput]

variable (fw : CompiledFirewall Rx Ip Net) (e : Evaluation Rx Tz Ip Net)

/-- The verdict on a message. -/
def verdictOn : EvaluationResult :=
  ({ fw with lists := e.lists }.evaluate e.platform e.clock e.ctx).1

/-- Where the verdict on a message comes from. -/
def deciderOn : Decider := e.decider fw.inputs fw.rateLimits

/-- **The verdict of `evaluate` comes from where `deciderOn` says.** -/
theorem evaluate_eq_outcome (henabled : fw.enabled = true) :
    (fw.deciderOn e).outcome fw.inputs fw.defaultPolicy = some (fw.verdictOn e) := by
  have hinput : ∀ chain ∈ fw.inputs, chain.chainType = .input := by
    intro chain hchain
    simpa using (List.mem_filter.mp hchain).2
  unfold deciderOn verdictOn evaluate
  rw [e.evaluateChains_eq_outcome hinput, inputs, evaluateChains_inputs]
  simp [henabled]

/-- A rule of an Input chain that matches in its turn and blocks, with no terminal rule that matches before
    it: neither in a chain ahead nor earlier in its own. -/
structure Turn (ahead : List (CompiledChain Rx Ip Net)) (chain : CompiledChain Rx Ip Net)
    (behind : List (CompiledChain Rx Ip Net)) (earlier : List (CompiledRule Rx Ip Net))
    (rule : CompiledRule Rx Ip Net) (later : List (CompiledRule Rx Ip Net)) : Prop where
  chains : fw.inputs = ahead ++ chain :: behind
  rules : chain.rules = earlier ++ rule :: later
  matches_ : e.Matches rule (e.consult earlier (e.entry ahead fw.rateLimits))
  blocks : rule.Blocks
  nothingAhead : e.AtEach (fun c rates => ∀ r ∈ e.hits c.rules rates, ¬ r.Terminal) ahead fw.rateLimits
  nothingEarlier : ∀ r ∈ e.hits earlier (e.entry ahead fw.rateLimits), ¬ r.Terminal

/-- What is expected: a rule that blocks decides unless a terminal one comes first; where nothing matches the
    default policy decides; and a chain where nothing matches and that accepts does not keep a message from the
    chains behind it. -/
structure AllConsulted : Prop where
  blocks : ∀ ahead chain behind earlier rule later, fw.Turn e ahead chain behind earlier rule later →
    fw.deciderOn e = .rule ahead.length earlier.length ∧ fw.verdictOn e = executeAction rule.action
  unmatched : e.AtEach (fun c rates => e.hits c.rules rates = []) fw.inputs fw.rateLimits →
    fw.verdictOn e = fw.defaultPolicy.result
  passes : ∀ ahead chain behind, fw.inputs = ahead ++ chain :: behind →
    e.hits chain.rules (e.entry ahead fw.rateLimits) = [] → chain.policy = .accept → behind ≠ [] →
      fw.deciderOn e ≠ .policy ahead.length

/-- What it takes: a rule that blocks in its turn has no matching rule before it in its chain, and a matching
    rule in every chain ahead; where nothing matches the first chain has the default policy; and a chain where
    nothing matches and that accepts is the last, or one ahead of it does not pass the message on. -/
structure Consults : Prop where
  blocks : ∀ ahead chain behind earlier rule later, fw.Turn e ahead chain behind earlier rule later →
    e.AtEach (fun c rates => e.hits c.rules rates ≠ []) ahead fw.rateLimits ∧
      e.hits earlier (e.entry ahead fw.rateLimits) = []
  unmatched : e.AtEach (fun c rates => e.hits c.rules rates = []) fw.inputs fw.rateLimits →
    ∀ chain behind, fw.inputs = chain :: behind → chain.policy = fw.defaultPolicy
  passes : ∀ ahead chain behind, fw.inputs = ahead ++ chain :: behind →
    e.hits chain.rules (e.entry ahead fw.rateLimits) = [] → chain.policy = .accept → behind ≠ [] →
      ¬ e.AtEach e.PassesOn ahead fw.rateLimits

variable {fw e}

/-- A rule in its turn decides exactly when every chain ahead has a match and nothing before it in its chain
    has. -/
theorem Turn.decides_iff {ahead : List (CompiledChain Rx Ip Net)} {chain : CompiledChain Rx Ip Net}
    {behind : List (CompiledChain Rx Ip Net)} {earlier : List (CompiledRule Rx Ip Net)}
    {rule : CompiledRule Rx Ip Net} {later : List (CompiledRule Rx Ip Net)}
    (h : fw.Turn e ahead chain behind earlier rule later) :
    fw.deciderOn e = .rule ahead.length earlier.length ↔
      e.AtEach (fun c rates => e.hits c.rules rates ≠ []) ahead fw.rateLimits ∧
        e.hits earlier (e.entry ahead fw.rateLimits) = [] := by
  unfold deciderOn
  rw [h.chains, e.decider_eq_rule_iff]
  constructor
  · rintro ⟨hpass, found, hfirst, -⟩
    refine ⟨fun before c after heq hnone => ?_, ?_⟩
    · obtain ⟨r, hhead, -⟩ := hpass before c after heq
      rw [hnone] at hhead
      cases hhead
    · rw [h.rules] at hfirst
      exact e.hits_of_firstMatch hfirst
  · rintro ⟨hsome, hnone⟩
    refine ⟨fun before c after heq => ?_, rule, ?_, h.blocks.terminal⟩
    · obtain ⟨r, hhead⟩ := Option.ne_none_iff_exists'.mp
        (List.head?_eq_none_iff.not.mpr (hsome before c after heq))
      exact ⟨r, hhead, h.nothingAhead before c after heq r (List.mem_of_head? hhead)⟩
    · rw [h.rules]
      exact (e.firstMatch_place h.matches_).mpr hnone

/-- A rule that decides gives the verdict. -/
theorem Turn.verdict {ahead : List (CompiledChain Rx Ip Net)} {chain : CompiledChain Rx Ip Net}
    {behind : List (CompiledChain Rx Ip Net)} {earlier : List (CompiledRule Rx Ip Net)}
    {rule : CompiledRule Rx Ip Net} {later : List (CompiledRule Rx Ip Net)}
    (h : fw.Turn e ahead chain behind earlier rule later) (henabled : fw.enabled = true)
    (hdecides : fw.deciderOn e = .rule ahead.length earlier.length) :
    fw.verdictOn e = executeAction rule.action := by
  have houtcome := fw.evaluate_eq_outcome e henabled
  rw [hdecides, Decider.outcome, h.chains, List.getElem?_append_right (Nat.le_refl _), Nat.sub_self,
    List.getElem?_cons_zero, Option.bind_some, h.rules, List.getElem?_append_right (Nat.le_refl _), Nat.sub_self,
    List.getElem?_cons_zero, Option.map_some] at houtcome
  exact (Option.some.inj houtcome).symm

theorem result_injective {p q : Policy} (h : p.result = q.result) : p = q := by
  cases p <;> cases q <;> first | rfl | cases h

/-- Where nothing matches, the policy of the first chain decides, and the default policy if there is none. -/
theorem verdict_of_unmatched (henabled : fw.enabled = true)
    (hnone : e.AtEach (fun c rates => e.hits c.rules rates = []) fw.inputs fw.rateLimits) :
    fw.verdictOn e = fw.defaultPolicy.result ↔
      ∀ chain behind, fw.inputs = chain :: behind → chain.policy = fw.defaultPolicy := by
  have houtcome := fw.evaluate_eq_outcome e henabled
  unfold deciderOn at houtcome
  cases hinputs : fw.inputs with
  | nil =>
    rw [hinputs] at houtcome
    refine iff_of_true (Option.some.inj houtcome).symm ?_
    intro chain behind heq
    cases heq
  | cons chain behind =>
    have hfirst : e.hits chain.rules fw.rateLimits = [] := hnone [] chain behind hinputs
    have hpolicy : e.decider ([] ++ chain :: behind) fw.rateLimits = .policy 0 := by
      exact e.decider_eq_policy_iff.mpr ⟨e.atEach_nil, hfirst⟩
    rw [List.nil_append] at hpolicy
    rw [hinputs, hpolicy] at houtcome
    have hverdict : fw.verdictOn e = chain.policy.result := (Option.some.inj houtcome).symm
    rw [hverdict]
    constructor
    · intro heq c b hcons
      obtain ⟨rfl, -⟩ := List.cons.inj hcons
      exact result_injective heq
    · intro hall
      rw [hall chain behind rfl]

/-- **The step lemma**: what is expected, exactly when it has what it takes. -/
theorem allConsulted_iff (henabled : fw.enabled = true) : fw.AllConsulted e ↔ fw.Consults e := by
  constructor
  · intro h
    refine ⟨fun ahead chain behind earlier rule later hturn => ?_, fun hnone => ?_, ?_⟩
    · exact hturn.decides_iff.mp (h.blocks _ _ _ _ _ _ hturn).1
    · exact (verdict_of_unmatched henabled hnone).mp (h.unmatched hnone)
    · intro ahead chain behind hchains hhits hpolicy hbehind hpass
      apply h.passes ahead chain behind hchains hhits hpolicy hbehind
      unfold deciderOn
      rw [hchains]
      exact e.decider_eq_policy_iff.mpr ⟨hpass, hhits⟩
  · intro h
    refine ⟨fun ahead chain behind earlier rule later hturn => ?_, fun hnone => ?_, ?_⟩
    · have hdecides := hturn.decides_iff.mpr (h.blocks _ _ _ _ _ _ hturn)
      exact ⟨hdecides, hturn.verdict henabled hdecides⟩
    · exact (verdict_of_unmatched henabled hnone).mpr (h.unmatched hnone)
    · intro ahead chain behind hchains hhits hpolicy hbehind hdecides
      apply h.passes ahead chain behind hchains hhits hpolicy hbehind
      unfold deciderOn at hdecides
      rw [hchains] at hdecides
      exact (e.decider_eq_policy_iff.mp hdecides).1

end CompiledFirewall

/-- **Are all chains consulted?**  In an enabled firewall, compiled from any configuration, whatever lists are
    loaded and whatever was counted so far, a message is treated as expected exactly when it `Consults`. -/
theorem all_chains_consulted_iff [DecidableEq Ip] {platform : Platform Rx Tz Ip Net} {config : FirewallConfig}
    {fw : CompiledFirewall Rx Ip Net} (hfw : CompiledFirewall.fromConfig platform config = .ok fw)
    (henabled : config.enabled = true) (lists : Lists) (rates : RateLimits) (clock : Clock)
    (ctx : EvaluationContext Ip) :
    fw.chains.Pairwise (fun a b => a.priority ≤ b.priority) ∧
      (CompiledFirewall.AllConsulted { fw with rateLimits := rates } ⟨platform, lists, clock, ctx⟩ ↔
        CompiledFirewall.Consults { fw with rateLimits := rates } ⟨platform, lists, clock, ctx⟩) := by
  refine ⟨CompiledFirewall.fromConfig_sorted hfw, CompiledFirewall.allConsulted_iff ?_⟩
  obtain ⟨chains, -, hmade⟩ := bind_eq_ok.mp hfw
  cases hmade
  exact henabled

/-! ## A rule that blocks, alone and behind an idle chain -/

/-- A rule that drops every message. -/
def dropAll : RuleConfig := { name := some "drop_all", action := .drop }

/-- A list with one element has one place. -/
theorem eq_of_singleton {α : Type} {l l' : List α} {a b : α} (h : [b] = l ++ a :: l') :
    l = [] ∧ a = b ∧ l' = [] := by
  cases l with
  | nil =>
    obtain ⟨rfl, rfl⟩ := List.cons.inj h
    exact ⟨rfl, rfl, rfl⟩
  | cons c l =>
    have htail := (List.cons.inj h).2
    exact absurd htail.symm (List.append_ne_nil_of_right_ne_nil _ (List.cons_ne_nil _ _))

/-- With one chain, and its policy the default one, a rule that blocks decides. -/
theorem all_chains_consulted_alone :
    let e : Evaluation Empty Unit String Empty := ⟨.bare, ∅, ⟨0, 0⟩, .new "a" "b" "c" "hello"⟩
    ∃ fw, CompiledFirewall.fromConfig .bare { chains := [{ name := "input", rules := [dropAll] }] } = .ok fw ∧
      CompiledFirewall.AllConsulted { fw with rateLimits := ∅ } e ∧
      CompiledFirewall.verdictOn { fw with rateLimits := ∅ } e = .drop := by
  intro e
  refine ⟨_, rfl, ?_, rfl⟩
  have hfw : CompiledFirewall.fromConfig Platform.bare { chains := [{ name := "input", rules := [dropAll] }] } = .ok _ :=
    rfl
  refine (all_chains_consulted_iff hfw rfl ∅ ∅ ⟨0, 0⟩ (.new "a" "b" "c" "hello")).2.mpr ⟨?_, ?_, ?_⟩
  · intro ahead chain behind earlier rule later hturn
    obtain ⟨rfl, rfl, -⟩ := eq_of_singleton hturn.chains
    obtain ⟨rfl, -, -⟩ := eq_of_singleton hturn.rules
    exact ⟨Evaluation.atEach_nil _, rfl⟩
  · intro hnone chain behind heq
    obtain ⟨rfl, -⟩ := List.cons.inj heq
    rfl
  · intro ahead chain behind heq hhits hpolicy hbehind
    exact absurd (eq_of_singleton heq).2.2 hbehind

/-- An empty chain in front of the one whose rule drops everything: everything is accepted. -/
theorem drop_behind_idle_chain :
    let e : Evaluation Empty Unit String Empty := ⟨.bare, ∅, ⟨0, 0⟩, .new "a" "b" "c" "hello"⟩
    ∃ fw, CompiledFirewall.fromConfig .bare
        { chains := [{ name := "audit" }, { name := "block", priority := 10, rules := [dropAll] }] } = .ok fw ∧
      CompiledFirewall.verdictOn fw e = .accept ∧ ¬ CompiledFirewall.AllConsulted fw e := by
  intro e
  refine ⟨_, rfl, rfl, fun hall => ?_⟩
  have hturn := hall.blocks [⟨"audit", .input, 0, .accept, []⟩]
    ⟨"block", .input, 10, .accept, [⟨some "drop_all", true, [], .drop⟩]⟩ [] [] ⟨some "drop_all", true, [], .drop⟩ []
    { chains := rfl
      rules := rfl
      matches_ := rfl
      blocks := Or.inl rfl
      nothingAhead := fun before c after heq r hr => by
        obtain ⟨rfl, rfl, -⟩ := eq_of_singleton heq
        exact absurd hr List.not_mem_nil
      nothingEarlier := fun r hr => absurd hr List.not_mem_nil }
  exact absurd hturn.2 nofun

end Smppd.Firewall
