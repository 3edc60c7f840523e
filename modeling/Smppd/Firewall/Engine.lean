/-
  The rule ENGINE (`src/firewall/engine.rs`): a configuration is compiled once, and every message is run
  through the Input chains in order of priority.

  Compiling stops at the first error.  Evaluating reads the external lists and writes ONE thing that a later
  evaluation reads, the table of rate limits, which is therefore passed along: a condition that is not
  looked at does not count.  An evaluation asks the clocks once.  The hit counters of the rules are read by
  the statistics alone and are left out, and so is what is written to the log.

  A rule that matches ENDS its chain, whatever its action; a result that is not terminal hands the message to
  the next chain.  `count` is a number without a bound here; the minutes of a time window are added up in
  `u32`, which wraps.
-/
import Mathlib.Data.List.Sort
import Mathlib.Data.List.Infix
import Smppd.Lib.Fallible
import Smppd.Lib.Rank
import Smppd.Firewall.Types

set_option linter.unusedVariables false

namespace Smppd.Firewall

open Smppd.Store Smppd.Forwarder Table Fallible

variable {Rx Tz Ip Net : Type}

/-! ## Compiled conditions -/

/-- String matcher. -/
inductive StringMatcher (Rx : Type) where
  | exact (value : String) (negate : Bool)
  | pre (value : String) (negate : Bool)
  | suffix (value : String) (negate : Bool)
  | contains (value : String) (negate : Bool)
  | regex (pattern : Rx) (negate : Bool)
  | list (listName : String) (negate : Bool)

/-- Content matcher. -/
inductive ContentMatcher (Rx : Type) where
  | contains (value : String) (caseInsensitive negate : Bool)
  | exact (value : String) (caseInsensitive negate : Bool)
  | regex (pattern : Rx) (negate : Bool)
  | keywords (listName : String) (caseInsensitive negate : Bool)

/-- IP matcher. -/
inductive IpMatcher (Ip Net : Type) where
  | exact (ip : Ip) (negate : Bool)
  | cidr (network : Net) (negate : Bool)
  | list (listName : String) (negate : Bool)

/-- Compiled condition for efficient evaluation. -/
inductive CompiledCondition (Rx Ip Net : Type) where
  | source (matcher : StringMatcher Rx)
  | destination (matcher : StringMatcher Rx)
  | senderId (matcher : StringMatcher Rx)
  | systemId (matcher : StringMatcher Rx)
  | content (matcher : ContentMatcher Rx)
  | contentLength (min max : Option Nat) (negate : Bool)
  | esmClass (value : UInt8) (mask : Option UInt8)
  | protocolId (value : UInt8)
  | dataCoding (value : UInt8)
  | clientIp (matcher : IpMatcher Ip Net)
  | tlsEnabled (value : Bool)
  | rate (key : RateKey) (window : Duration) (threshold : UInt64)
  | time (startHour startMin endHour endMin : UInt32) (timezone : Option String)
  | dayOfWeek (days : List UInt8)
  | not (condition : CompiledCondition Rx Ip Net)
  | and (conditions : List (CompiledCondition Rx Ip Net))
  | or (conditions : List (CompiledCondition Rx Ip Net))

/-! ## Compiling -/

/-- What is there, or else `FirewallError::InvalidCondition`: the `ok_or_else` of a missing field and the
    `map_err` of a parser. -/
def orInvalid {α : Type} (text : String) : Option α → Except FirewallError α
  | some value => pure value
  | none => throw (.invalidCondition text)

theorem orInvalid_eq_ok {α : Type} {text : String} {value : α} {o : Option α} :
    orInvalid text o = .ok value ↔ o = some value := by
  cases o with
  | none => exact iff_of_false (fun h => nomatch h) (fun h => nomatch h)
  | some v =>
    constructor
    · intro h
      cases h
      rfl
    · intro h
      cases h
      rfl

/-- `Regex::new(..)?`. -/
def compileRegex (platform : Platform Rx Tz Ip Net) (pattern : String) : Except FirewallError Rx :=
  (platform.regexes.compile pattern).mapError .regexError

/-- `compile_string_matcher`. -/
def compileStringMatcher (platform : Platform Rx Tz Ip Net) (config : StringMatcherConfig) :
    Except FirewallError (StringMatcher Rx) :=
  match config.matchType with
  | .exact => do
    let value ← orInvalid "exact match requires value" config.value
    pure (.exact value config.negate)
  | .pre => do
    let value ← orInvalid "prefix match requires value" config.value
    pure (.pre value config.negate)
  | .suffix => do
    let value ← orInvalid "suffix match requires value" config.value
    pure (.suffix value config.negate)
  | .contains => do
    let value ← orInvalid "contains match requires value" config.value
    pure (.contains value config.negate)
  | .regex => do
    let pattern ← orInvalid "regex match requires pattern" config.pattern
    let regex ← compileRegex platform pattern
    pure (.regex regex config.negate)
  | .list => do
    let listName ← orInvalid "list match requires list name" config.list
    pure (.list listName config.negate)

/-- The pattern that a content matcher compiles. -/
def contentPattern (caseInsensitive : Bool) (pattern : String) : String :=
  if caseInsensitive then "(?i)" ++ pattern else pattern

/-- `compile_content_matcher`. -/
def compileContentMatcher (platform : Platform Rx Tz Ip Net) (config : ContentMatcherConfig) :
    Except FirewallError (ContentMatcher Rx) :=
  match config.matchType with
  | .contains => do
    let value ← orInvalid "contains match requires value" config.value
    pure (.contains value config.caseInsensitive config.negate)
  | .exact => do
    let value ← orInvalid "exact match requires value" config.value
    pure (.exact value config.caseInsensitive config.negate)
  | .regex => do
    let pattern ← orInvalid "regex match requires pattern" config.pattern
    let regex ← compileRegex platform (contentPattern config.caseInsensitive pattern)
    pure (.regex regex config.negate)
  | .keywords => do
    let listName ← orInvalid "keywords match requires list name" config.list
    pure (.keywords listName config.caseInsensitive config.negate)

/-- `compile_ip_matcher`. -/
def compileIpMatcher (platform : Platform Rx Tz Ip Net) (config : IpMatcherConfig) :
    Except FirewallError (IpMatcher Ip Net) :=
  match config.matchType with
  | .exact => do
    let value ← orInvalid "exact IP match requires value" config.value
    let ip ← orInvalid ("invalid IP address: " ++ value) (platform.parseIp value)
    pure (.exact ip config.negate)
  | .cidr => do
    let value ← orInvalid "CIDR match requires value" config.value
    let network ← orInvalid ("invalid CIDR: " ++ value) (platform.nets.parse value)
    pure (.cidr network config.negate)
  | .list => do
    let listName ← orInvalid "list IP match requires list name" config.list
    pure (.list listName config.negate)

/-- `parse_time`. -/
def parseTime (timeStr : String) : Except FirewallError (UInt32 × UInt32) :=
  match timeStr.toList.splitOn ':' with
  | [h, m] => do
    let hour ← orInvalid ("invalid hour: " ++ String.ofList h) (parseU32 (String.ofList h))
    let min ← orInvalid ("invalid minute: " ++ String.ofList m) (parseU32 (String.ofList m))
    pure (hour, min)
  | _ => throw (.invalidCondition ("invalid time format: " ++ timeStr))

mutual

/-- `compile_condition`. -/
def compileCondition (platform : Platform Rx Tz Ip Net) :
    ConditionConfig → Except FirewallError (CompiledCondition Rx Ip Net)
  | .source matcher => do
    let matcher ← compileStringMatcher platform matcher
    pure (.source matcher)
  | .destination matcher => do
    let matcher ← compileStringMatcher platform matcher
    pure (.destination matcher)
  | .senderId matcher => do
    let matcher ← compileStringMatcher platform matcher
    pure (.senderId matcher)
  | .systemId matcher => do
    let matcher ← compileStringMatcher platform matcher
    pure (.systemId matcher)
  | .content matcher => do
    let matcher ← compileContentMatcher platform matcher
    pure (.content matcher)
  | .contentLength min max negate => pure (.contentLength min max negate)
  | .esmClass value mask => pure (.esmClass value mask)
  | .protocolId value => pure (.protocolId value)
  | .dataCoding value => pure (.dataCoding value)
  | .clientIp matcher => do
    let matcher ← compileIpMatcher platform matcher
    pure (.clientIp matcher)
  | .tlsEnabled value => pure (.tlsEnabled value)
  | .rate key window threshold => pure (.rate key window threshold)
  | .time start stop timezone => do
    let (startHour, startMin) ← parseTime start
    let (endHour, endMin) ← parseTime stop
    pure (.time startHour startMin endHour endMin timezone)
  | .dayOfWeek days => pure (.dayOfWeek days)
  | .not condition => do
    let condition ← compileCondition platform condition
    pure (.not condition)
  | .and conditions => do
    let compiled ← compileConditions platform conditions
    pure (.and compiled)
  | .or conditions => do
    let compiled ← compileConditions platform conditions
    pure (.or compiled)
  | .plugin _ => throw (.invalidCondition "plugin conditions not yet supported")

/-- `iter().map(Self::compile_condition).collect::<Result<Vec<_>, _>>()`. -/
def compileConditions (platform : Platform Rx Tz Ip Net) :
    List ConditionConfig → Except FirewallError (List (CompiledCondition Rx Ip Net))
  | [] => pure []
  | condition :: conditions => do
    let compiled ← compileCondition platform condition
    let rest ← compileConditions platform conditions
    pure (compiled :: rest)

end

/-- Compiled rule. -/
structure CompiledRule (Rx Ip Net : Type) where
  name : Option String
  enabled : Bool
  conditions : List (CompiledCondition Rx Ip Net)
  action : ActionConfig

/-- Compiled chain. -/
structure CompiledChain (Rx Ip Net : Type) where
  name : String
  chainType : ChainType
  priority : Int
  policy : Policy
  rules : List (CompiledRule Rx Ip Net)

/-- Rate limit state for a key. -/
structure RateLimitState where
  count : Nat
  windowStart : Instant

/-- The rate limiting state. -/
abbrev RateLimits := Tbl String RateLimitState

/-- The external lists. -/
abbrev Lists := Tbl String (List String)

/-- Compiled firewall for efficient evaluation. -/
structure CompiledFirewall (Rx Ip Net : Type) where
  enabled : Bool
  defaultPolicy : Policy
  /-- Sorted by priority. -/
  chains : List (CompiledChain Rx Ip Net)
  lists : Lists
  rateLimits : RateLimits

/-- One rule of `from_config`. -/
def compileRule (platform : Platform Rx Tz Ip Net) (config : RuleConfig) :
    Except FirewallError (CompiledRule Rx Ip Net) := do
  let conditions ← compileConditions platform config.conditions
  pure { name := config.name, enabled := config.enabled, conditions := conditions, action := config.action }

/-- One chain of `from_config`. -/
def compileChain (platform : Platform Rx Tz Ip Net) (config : ChainConfig) :
    Except FirewallError (CompiledChain Rx Ip Net) := do
  let rules ← collect (compileRule platform) config.rules
  pure { name := config.name, chainType := config.chainType, priority := config.priority,
         policy := config.policy, rules := rules }

/-- `chains.sort_by_key(|c| c.priority)`. -/
def sortChains (chains : List (CompiledChain Rx Ip Net)) : List (CompiledChain Rx Ip Net) :=
  chains.insertionSort fun a b => a.priority ≤ b.priority

/-- `CompiledFirewall::from_config`. -/
def CompiledFirewall.fromConfig (platform : Platform Rx Tz Ip Net) (config : FirewallConfig) :
    Except FirewallError (CompiledFirewall Rx Ip Net) := do
  let chains ← collect (compileChain platform) config.chains
  pure { enabled := config.enabled, defaultPolicy := config.defaultPolicy, chains := sortChains chains,
         lists := ∅, rateLimits := ∅ }

/-- The chains of a compiled firewall are in the order of their priorities. -/
theorem CompiledFirewall.fromConfig_sorted {platform : Platform Rx Tz Ip Net} {config : FirewallConfig}
    {fw : CompiledFirewall Rx Ip Net} (h : CompiledFirewall.fromConfig platform config = .ok fw) :
    fw.chains.Pairwise fun a b => a.priority ≤ b.priority := by
  obtain ⟨chains, -, hmade⟩ := bind_eq_ok.mp h
  cases hmade
  exact List.pairwise_insertionSort _ chains

/-- `load_list`. -/
def CompiledFirewall.loadList (name : String) (entries : List String) (self : CompiledFirewall Rx Ip Net) :
    CompiledFirewall Rx Ip Net :=
  { self with lists := self.lists.insert name entries }

/-! ## Matchers -/

/-- `if negate { !matches } else { matches }`. -/
def negated (negate matches_ : Bool) : Bool := if negate then !matches_ else matches_

/-- `str::contains`. -/
def containsText (value pattern : String) : Bool := pattern.toList <:+: value.toList

/-- `match_string`. -/
def matchString (platform : Platform Rx Tz Ip Net) (lists : Lists) (matcher : StringMatcher Rx) (value : String) :
    Bool :=
  match matcher with
  | .exact pattern negate => negated negate (value = pattern)
  | .pre pattern negate => negated negate (pattern.toList.isPrefixOf value.toList)
  | .suffix pattern negate => negated negate (pattern.toList.isSuffixOf value.toList)
  | .contains pattern negate => negated negate (containsText value pattern)
  | .regex pattern negate => negated negate (platform.regexes.isMatch pattern value)
  | .list listName negate =>
    negated negate (((lists.lookup listName).map fun list => list.any fun entry => entry = value).getD false)

/-- `to_lowercase`, where the matcher asks for it. -/
def folded (platform : Platform Rx Tz Ip Net) (caseInsensitive : Bool) (text : String) : String :=
  if caseInsensitive then platform.toLowercase text else text

/-- `match_content`. -/
def matchContent (platform : Platform Rx Tz Ip Net) (lists : Lists) (matcher : ContentMatcher Rx)
    (content : String) : Bool :=
  match matcher with
  | .contains value caseInsensitive negate =>
    negated negate (containsText (folded platform caseInsensitive content) (folded platform caseInsensitive value))
  | .exact value caseInsensitive negate =>
    negated negate (folded platform caseInsensitive content = folded platform caseInsensitive value)
  | .regex pattern negate => negated negate (platform.regexes.isMatch pattern content)
  | .keywords listName caseInsensitive negate =>
    negated negate (((lists.lookup listName).map fun keywords =>
      keywords.any fun kw =>
        containsText (folded platform caseInsensitive content) (folded platform caseInsensitive kw)).getD false)

/-- `match_ip`. -/
def matchIp [DecidableEq Ip] (platform : Platform Rx Tz Ip Net) (lists : Lists) (matcher : IpMatcher Ip Net)
    (ip : Ip) : Bool :=
  match matcher with
  | .exact expected negate => negated negate (ip = expected)
  | .cidr network negate => negated negate (platform.nets.contains network ip)
  | .list listName negate =>
    negated negate (((lists.lookup listName).map fun list =>
      list.any fun entry => entry = platform.ipText ip).getD false)

/-! ## Conditions that depend on the time -/

/-- `format!("{:?}:{}", key, ctx.get_rate_key(key))`. -/
def rateKeyText (key : RateKey) (value : String) : String := key.debugName ++ ":" ++ value

/-- The window in which a check counts: the one of the entry, or a new one. -/
def RateLimitState.current (clock : Clock) (window : Duration) (state : RateLimitState) : RateLimitState :=
  if window ≤ elapsed clock state.windowStart then ⟨0, clock.now⟩ else state

/-- `check_rate_limit`. -/
def checkRateLimit (platform : Platform Rx Tz Ip Net) (clock : Clock) (key : RateKey) (window : Duration)
    (threshold : UInt64) (ctx : EvaluationContext Ip) (rateLimits : RateLimits) : Bool × RateLimits :=
  let rateKey := rateKeyText key (ctx.getRateKey platform key)
  let state := ((rateLimits.lookup rateKey).getD ⟨0, clock.now⟩).current clock window
  let state := { state with count := state.count + 1 }
  (threshold.toNat < state.count, rateLimits.insert rateKey state)

/-- `weekday().num_days_from_sunday() as u8`. -/
def daysFromSunday : Router.Weekday → UInt8
  | .sun => 0
  | .mon => 1
  | .tue => 2
  | .wed => 3
  | .thu => 4
  | .fri => 5
  | .sat => 6

/-- `check_time`; the timezone of the condition is not used. -/
def checkTime (platform : Platform Rx Tz Ip Net) (clock : Clock) (startHour startMin endHour endMin : UInt32) :
    Bool :=
  let now := platform.zones.read platform.zones.utc clock.wall
  let currentMinutes := now.hour * 60 + now.minute
  let startMinutes := startHour * 60 + startMin
  let endMinutes := endHour * 60 + endMin
  if startMinutes ≤ endMinutes then startMinutes ≤ currentMinutes && currentMinutes ≤ endMinutes
  else startMinutes ≤ currentMinutes || currentMinutes ≤ endMinutes

/-! ## Evaluating -/

section Evaluate

variable [DecidableEq Ip] (platform : Platform Rx Tz Ip Net) (lists : Lists) (clock : Clock)
  (ctx : EvaluationContext Ip)

mutual

/-- `evaluate_condition`. -/
def evaluateCondition : CompiledCondition Rx Ip Net → RateLimits → Bool × RateLimits
  | .source matcher, rates => (matchString platform lists matcher ctx.source, rates)
  | .destination matcher, rates => (matchString platform lists matcher ctx.destination, rates)
  | .senderId matcher, rates =>
    match ctx.senderId with
    | some senderId => (matchString platform lists matcher senderId, rates)
    | none => (false, rates)
  | .systemId matcher, rates => (matchString platform lists matcher ctx.systemId, rates)
  | .content matcher, rates => (matchContent platform lists matcher ctx.content, rates)
  | .contentLength min max negate, rates =>
    let len := ctx.contentLength
    let inRange := (min.all fun m => m ≤ len) && (max.all fun m => len ≤ m)
    (negated negate inRange, rates)
  | .esmClass value mask, rates =>
    match mask with
    | some m => (ctx.esmClass &&& m = value &&& m, rates)
    | none => (ctx.esmClass = value, rates)
  | .protocolId value, rates => (ctx.protocolId = value, rates)
  | .dataCoding value, rates => (ctx.dataCoding = value, rates)
  | .clientIp matcher, rates =>
    match ctx.clientIp with
    | some ip => (matchIp platform lists matcher ip, rates)
    | none => (false, rates)
  | .tlsEnabled value, rates => (ctx.tlsEnabled = value, rates)
  | .rate key window threshold, rates => checkRateLimit platform clock key window threshold ctx rates
  | .time startHour startMin endHour endMin _, rates =>
    (checkTime platform clock startHour startMin endHour endMin, rates)
  | .dayOfWeek days, rates =>
    (days.contains (daysFromSunday (platform.zones.read platform.zones.utc clock.wall).weekday), rates)
  | .not inner, rates =>
    let (holds, rates) := evaluateCondition inner rates
    (!holds, rates)
  | .and conditions, rates => evaluateConditions conditions rates
  | .or conditions, rates => evaluateAny conditions rates

/-- `evaluate_conditions`, which is also the loop of an And: stop at the first that does not hold. -/
def evaluateConditions : List (CompiledCondition Rx Ip Net) → RateLimits → Bool × RateLimits
  | [], rates => (true, rates)
  | condition :: conditions, rates =>
    match evaluateCondition condition rates with
    | (true, rates) => evaluateConditions conditions rates
    | (false, rates) => (false, rates)

/-- The loop of an Or: stop at the first that holds. -/
def evaluateAny : List (CompiledCondition Rx Ip Net) → RateLimits → Bool × RateLimits
  | [], rates => (false, rates)
  | condition :: conditions, rates =>
    match evaluateCondition condition rates with
    | (true, rates) => (true, rates)
    | (false, rates) => evaluateAny conditions rates

end

/-- `execute_action`. -/
def executeAction : ActionConfig → EvaluationResult
  | .accept => .accept
  | .drop => .drop
  | .reject status reason => .reject status reason
  | .log _ _ (some thenAction) => executeAction thenAction
  | .log _ _ none => .continue
  | .quarantine => .quarantine
  | .modify setSource setDestination setContent _ _ => .modify setSource setDestination setContent
  | .mark _ _ => .continue
  | _ => .continue

/-- What a policy answers. -/
def Policy.result : Policy → EvaluationResult
  | .accept => .accept
  | .drop => .drop
  | .reject => .reject 8 none

/-- The loop of `evaluate_chain`: the result of the first rule that matches, if one does. -/
def evaluateRules : List (CompiledRule Rx Ip Net) → RateLimits → Option EvaluationResult × RateLimits
  | [], rates => (none, rates)
  | rule :: rules, rates =>
    if !rule.enabled then evaluateRules rules rates
    else
      match evaluateConditions platform lists clock ctx rule.conditions rates with
      | (true, rates) => (some (executeAction rule.action), rates)
      | (false, rates) => evaluateRules rules rates

/-- `evaluate_chain`. -/
def evaluateChain (chain : CompiledChain Rx Ip Net) (rates : RateLimits) : EvaluationResult × RateLimits :=
  let (result, rates) := evaluateRules platform lists clock ctx chain.rules rates
  (result.getD chain.policy.result, rates)

/-- The loop of `evaluate`: the first terminal result of an Input chain, if there is one. -/
def evaluateChains : List (CompiledChain Rx Ip Net) → RateLimits → Option EvaluationResult × RateLimits
  | [], rates => (none, rates)
  | chain :: chains, rates =>
    if chain.chainType ≠ .input then evaluateChains chains rates
    else
      let (result, rates) := evaluateChain platform lists clock ctx chain rates
      if result.isTerminal then (some result, rates) else evaluateChains chains rates

/-- `evaluate`. -/
def CompiledFirewall.evaluate (self : CompiledFirewall Rx Ip Net) : EvaluationResult × CompiledFirewall Rx Ip Net :=
  if !self.enabled then (.accept, self)
  else
    let (result, rates) := evaluateChains platform self.lists clock ctx self.chains self.rateLimits
    (result.getD self.defaultPolicy.result, { self with rateLimits := rates })

/-! ## The loops in parts -/

/-- A list of rules is gone through in two parts. -/
theorem evaluateRules_append (rules rules' : List (CompiledRule Rx Ip Net)) (rates : RateLimits) :
    evaluateRules platform lists clock ctx (rules ++ rules') rates =
      match evaluateRules platform lists clock ctx rules rates with
      | (some result, rates) => (some result, rates)
      | (none, rates) => evaluateRules platform lists clock ctx rules' rates := by
  induction rules generalizing rates with
  | nil => rfl
  | cons rule rules ih =>
    rw [List.cons_append, evaluateRules, evaluateRules]
    split
    · exact ih rates
    · obtain ⟨holds, rates'⟩ := evaluateConditions platform lists clock ctx rule.conditions rates
      cases holds with
      | true => rfl
      | false => exact ih rates'

/-- What an Input chain does with a message that has got to it. -/
theorem evaluateChains_input {chain : CompiledChain Rx Ip Net} (hinput : chain.chainType = .input)
    (chains : List (CompiledChain Rx Ip Net)) (rates : RateLimits) :
    evaluateChains platform lists clock ctx (chain :: chains) rates =
      match evaluateRules platform lists clock ctx chain.rules rates with
      | (result, rates) =>
        if (result.getD chain.policy.result).isTerminal then (some (result.getD chain.policy.result), rates)
        else evaluateChains platform lists clock ctx chains rates := by
  rw [evaluateChains, if_neg (not_not.mpr hinput)]
  rfl

/-- A list of chains is gone through in two parts. -/
theorem evaluateChains_append (chains chains' : List (CompiledChain Rx Ip Net)) (rates : RateLimits) :
    evaluateChains platform lists clock ctx (chains ++ chains') rates =
      match evaluateChains platform lists clock ctx chains rates with
      | (some result, rates) => (some result, rates)
      | (none, rates) => evaluateChains platform lists clock ctx chains' rates := by
  induction chains generalizing rates with
  | nil => rfl
  | cons chain chains ih =>
    rw [List.cons_append, evaluateChains, evaluateChains]
    split
    · exact ih rates
    · obtain ⟨result, rates'⟩ := evaluateChain platform lists clock ctx chain rates
      simp only
      split
      · rfl
      · exact ih rates'

end Evaluate

end Smppd.Firewall
