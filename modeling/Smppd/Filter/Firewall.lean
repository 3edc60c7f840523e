/-
  The message FIREWALL (`src/filter/firewall.rs`): a message is checked against the configuration, then
  against the lists and the rules of the client that sent it, then against the rules for everyone, and what
  is found first decides.

  What the libraries know (`Texts`) is a parameter, about which nothing is assumed: compiled patterns, lower
  case, and the clock on the wall of a timezone, to the nanosecond.  A check happens at one instant.  A set is
  the list of its elements.

  A check writes ONE thing, the event log, and reads it never.  The log keeps the last `max_events` events,
  or one event when that is zero.  What is written to the trace, and the description of a rule, are left out.
-/
import Mathlib.Data.List.Sort
import Mathlib.Data.List.Infix
import Smppd.Lib.Table
import Smppd.Router.Matcher

set_option linter.unusedVariables false

namespace Smppd.Filter

open Smppd.Store Table

/-- What the libraries know about compiled patterns `Rx` and timezones `Tz`. -/
structure Texts (Rx Tz : Type) where
  regexes : Router.Regexes Rx
  zones : Router.Zones Tz
  /-- The nanoseconds beyond the minute that the clock of the timezone shows. -/
  intoMinute : Tz → SystemTime → Nat
  /-- `str::to_lowercase`. -/
  toLowercase : String → String

/-- Libraries that support no patterns, and with which it is noon. -/
def Texts.bare : Texts Empty Unit where
  regexes := ⟨fun _ => .error "unsupported", nofun⟩
  zones := ⟨fun _ => some (), (), fun _ _ => ⟨.mon, 12, 0⟩⟩
  intoMinute := fun _ _ => 0
  toLowercase := fun text => String.ofList (text.toList.map Char.toLower)

/-- `smpp::pdu::Status`: those that the firewall names, and any other by its code. -/
inductive Status where
  | invalidMessageLength
  | systemError
  | invalidSourceAddress
  | invalidDestAddress
  | other (code : UInt32)
  deriving DecidableEq

variable {Rx Tz : Type}

/-! ## Rules -/

/-- Firewall action for matched rules. -/
inductive FirewallAction where
  | allow
  /-- Block with specific status code. -/
  | block (status : Status)
  /-- Log and allow (monitor mode). -/
  | log
  /-- Quarantine for review. -/
  | quarantine
  | modify
  /-- Raise alarm and allow. -/
  | alarm
  deriving DecidableEq

/-- `NaiveTime`: nanoseconds since midnight. -/
abbrev NaiveTime := Nat

/-- The time of day that the clock of a timezone shows. -/
def Texts.timeOfDay (texts : Texts Rx Tz) (tz : Tz) (at_ : SystemTime) : NaiveTime :=
  let shown := texts.zones.read tz at_
  (shown.hour.toNat * 60 + shown.minute.toNat) * 60000000000 + texts.intoMinute tz at_

/-- Time window for time-based rules. -/
structure TimeWindow (Tz : Type) where
  start : NaiveTime
  stop : NaiveTime
  /-- Empty = all days. -/
  days : List Router.Weekday
  timezone : Tz

/-- `is_active`. -/
def TimeWindow.isActive (texts : Texts Rx Tz) (clock : Clock) (self : TimeWindow Tz) : Bool :=
  let currentTime := texts.timeOfDay self.timezone clock.wall
  let currentDay := (texts.zones.read self.timezone clock.wall).weekday
  if !self.days.isEmpty && !self.days.contains currentDay then false
  else if self.start ≤ self.stop then self.start ≤ currentTime && currentTime ≤ self.stop
  else self.start ≤ currentTime || currentTime ≤ self.stop

/-- SMPP protocol parameters for filtering. -/
structure ProtocolParams where
  esmClass : Option UInt8 := none
  protocolId : Option UInt8 := none
  dataCoding : Option UInt8 := none
  sourceAddrTon : Option UInt8 := none
  sourceAddrNpi : Option UInt8 := none
  destAddrTon : Option UInt8 := none
  destAddrNpi : Option UInt8 := none

/-- Message context for firewall evaluation. -/
structure MessageContext where
  content : String
  senderId : String
  destination : String
  source : String
  /-- System ID of the submitting client. -/
  systemId : String
  protocol : ProtocolParams := {}

/-- Firewall rule types. -/
inductive RuleType (Rx Tz : Type) where
  | keyword (kw : String)
  | pattern (re : Rx)
  | senderId (id : String)
  | destinationPrefix (pre : String)
  | sourcePrefix (pre : String)
  | destinationList (list : List String)
  | sourceList (list : List String)
  | protocol (params : ProtocolParams)
  | timeWindow (window : TimeWindow Tz)
  /-- All must match. -/
  | all (rules : List (RuleType Rx Tz))
  /-- Any must match. -/
  | any (rules : List (RuleType Rx Tz))

/-- `if let Some(value) = set { if actual != Some(value) { return false; } }`. -/
def agrees (set actual : Option UInt8) : Bool := set.all fun value => actual = some value

/-- The `Protocol` branch of `matches`, which compares three of the seven parameters. -/
def ProtocolParams.matches (params actual : ProtocolParams) : Bool :=
  agrees params.esmClass actual.esmClass && agrees params.protocolId actual.protocolId &&
    agrees params.dataCoding actual.dataCoding

section Matches

variable (texts : Texts Rx Tz) (clock : Clock) (ctx : MessageContext)

mutual

/-- Check if rule matches the message. -/
def RuleType.matches : RuleType Rx Tz → Bool
  | .keyword kw => (texts.toLowercase kw).toList <:+: (texts.toLowercase ctx.content).toList
  | .pattern re => texts.regexes.isMatch re ctx.content
  | .senderId id => texts.toLowercase ctx.senderId = texts.toLowercase id
  | .destinationPrefix pre => pre.toList.isPrefixOf ctx.destination.toList
  | .sourcePrefix pre => pre.toList.isPrefixOf ctx.source.toList
  | .destinationList list => list.contains ctx.destination
  | .sourceList list => list.contains ctx.source
  | .protocol params => params.matches ctx.protocol
  | .timeWindow window => window.isActive texts clock
  | .all rules => matchesAll rules
  | .any rules => matchesAny rules

/-- `rules.iter().all(..)`. -/
def matchesAll : List (RuleType Rx Tz) → Bool
  | [] => true
  | rule :: rules => RuleType.matches rule && matchesAll rules

/-- `rules.iter().any(..)`. -/
def matchesAny : List (RuleType Rx Tz) → Bool
  | [] => false
  | rule :: rules => RuleType.matches rule || matchesAny rules

end

end Matches

/-- Firewall rule. -/
structure FirewallRule (Rx Tz : Type) where
  name : String
  ruleType : RuleType Rx Tz
  action : FirewallAction
  /-- Rule priority (higher = checked first). -/
  priority : Int := 0
  enabled : Bool := true
  /-- ESME/system_id this rule applies to (None = all). -/
  esmeId : Option String := none

/-! ## The event log -/

/-- Type of firewall event. -/
inductive FirewallEventType where
  | blocked
  | allowed
  /-- Monitor mode. -/
  | logged
  | quarantined
  | alarm
  deriving DecidableEq

/-- Firewall event for logging. -/
structure FirewallEvent where
  timestamp : SystemTime
  eventType : FirewallEventType
  ruleName : Option String
  action : FirewallAction
  source : String
  destination : String
  senderId : String
  systemId : String
  /-- First 50 chars. -/
  contentPreview : String
  deriving DecidableEq

/-- Firewall event log. -/
structure FirewallEventLog where
  /-- The oldest first. -/
  events : List FirewallEvent
  maxEvents : Nat
  deriving DecidableEq

/-- Create new event log. -/
def FirewallEventLog.new (maxEvents : Nat) : FirewallEventLog := ⟨[], maxEvents⟩

/-- Log an event. -/
def FirewallEventLog.log (self : FirewallEventLog) (event : FirewallEvent) : FirewallEventLog :=
  let events := if self.maxEvents ≤ self.events.length then self.events.tail else self.events
  { self with events := events ++ [event] }

/-! ## The firewall -/

/-- Firewall check result. -/
structure FirewallResult where
  allowed : Bool
  action : FirewallAction
  matchedRule : Option String
  /-- Status code for blocked messages. -/
  status : Option Status
  deriving DecidableEq

/-- Create allowed result. -/
def FirewallResult.allow : FirewallResult := ⟨true, .allow, none, none⟩

/-- Create blocked result. -/
def FirewallResult.blocked (rule : String) (status : Status) : FirewallResult :=
  ⟨false, .block status, some rule, some status⟩

/-- Firewall configuration. -/
structure FirewallConfig where
  enabled : Bool := true
  /-- Default action for unmatched messages. -/
  defaultAction : FirewallAction := .allow
  blockPremiumRate : Bool := true
  blockInternational : Bool := false
  /-- Allowed international country codes (if blocking international). -/
  allowedInternational : List String := []
  maxMessageLength : Option Nat := none
  minMessageLength : Option Nat := none
  allowedDataCoding : Option (List UInt8) := none
  deniedEsmClass : List UInt8 := []
  maxLogEvents : Nat := 10000

/-- Per-ESME firewall settings. -/
structure EsmeFirewallSettings (Rx Tz : Type) where
  /-- If set, only these allowed. -/
  destinationAllowList : Option (List String) := none
  destinationDenyList : List String := []
  sourceAllowList : Option (List String) := none
  sourceDenyList : List String := []
  senderAllowList : Option (List String) := none
  senderDenyList : List String := []
  rules : List (FirewallRule Rx Tz) := []

/-- SMS Firewall. -/
structure Firewall (Rx Tz : Type) where
  config : FirewallConfig
  rules : List (FirewallRule Rx Tz)
  premiumPrefixes : List String
  esmeSettings : Tbl String (EsmeFirewallSettings Rx Tz)
  eventLog : FirewallEventLog

/-- Common premium rate prefixes. -/
def premiumPrefixes : List String :=
  ["1900", "1976", "0900", "0909", "0906", "0908", "0871", "0872", "0873"]

namespace Firewall

/-- Create new firewall. -/
def new (config : FirewallConfig) : Firewall Rx Tz :=
  ⟨config, [], Filter.premiumPrefixes, ∅, .new config.maxLogEvents⟩

/-- Add a rule: `sort_by` is stable. -/
def addRule (rule : FirewallRule Rx Tz) (self : Firewall Rx Tz) : Firewall Rx Tz :=
  { self with rules := (self.rules ++ [rule]).insertionSort fun a b => b.priority ≤ a.priority }

/-- Add multiple rules. -/
def withRules (self : Firewall Rx Tz) (rules : List (FirewallRule Rx Tz)) : Firewall Rx Tz :=
  rules.foldl (fun fw rule => fw.addRule rule) self

/-- Set ESME settings. -/
def setEsmeSettings (esmeId : String) (settings : EsmeFirewallSettings Rx Tz) (self : Firewall Rx Tz) :
    Firewall Rx Tz :=
  { self with esmeSettings := self.esmeSettings.insert esmeId settings }

/-- Get ESME settings. -/
def getEsmeSettings (self : Firewall Rx Tz) (esmeId : String) : Option (EsmeFirewallSettings Rx Tz) :=
  self.esmeSettings.lookup esmeId

end Firewall

/-! ## Checking -/

/-- `if hit { return self.log_result(ctx, FirewallResult::blocked(rule, status)); }`, but for the logging. -/
def blockIf (hit : Bool) (rule : String) (status : Status) : Option FirewallResult :=
  if hit then some (.blocked rule status) else none

/-- The country code that is looked up: up to three digits behind the first character. -/
def countryCode (destination : String) : String :=
  String.ofList (((destination.toList.drop 1).takeWhile Char.isDigit).take 3)

/-- The checks of the message itself, in order. -/
def Firewall.checkMessage (self : Firewall Rx Tz) (ctx : MessageContext) : Option FirewallResult :=
  blockIf (self.config.maxMessageLength.any fun max => max < ctx.content.utf8ByteSize)
      "message_too_long" .invalidMessageLength <|>
    blockIf (self.config.minMessageLength.any fun min => ctx.content.utf8ByteSize < min)
      "message_too_short" .invalidMessageLength <|>
    blockIf (self.config.allowedDataCoding.any fun allowed =>
        ctx.protocol.dataCoding.any fun dcs => !allowed.contains dcs)
      "data_coding_not_allowed" .invalidDestAddress <|>
    blockIf (ctx.protocol.esmClass.any fun esm => self.config.deniedEsmClass.contains esm)
      "esm_class_denied" .invalidDestAddress <|>
    blockIf (self.config.blockPremiumRate &&
        self.premiumPrefixes.any fun pre => pre.toList.isPrefixOf ctx.destination.toList)
      "premium_rate_blocked" .invalidDestAddress <|>
    blockIf (self.config.blockInternational && ['+'].isPrefixOf ctx.destination.toList &&
        !self.config.allowedInternational.contains (countryCode ctx.destination))
      "international_blocked" .invalidDestAddress

/-- The checks of the lists of the client, in order. -/
def EsmeFirewallSettings.checkLists (self : EsmeFirewallSettings Rx Tz) (ctx : MessageContext) :
    Option FirewallResult :=
  blockIf (self.destinationAllowList.any fun list => !list.contains ctx.destination)
      "destination_not_in_allow_list" .invalidDestAddress <|>
    blockIf (self.destinationDenyList.contains ctx.destination)
      "destination_in_deny_list" .invalidDestAddress <|>
    blockIf (self.sourceAllowList.any fun list => !list.contains ctx.source)
      "source_not_in_allow_list" .invalidSourceAddress <|>
    blockIf (self.sourceDenyList.contains ctx.source)
      "source_in_deny_list" .invalidSourceAddress <|>
    blockIf (self.senderAllowList.any fun list => !list.contains ctx.senderId)
      "sender_not_in_allow_list" .invalidSourceAddress <|>
    blockIf (self.senderDenyList.contains ctx.senderId)
      "sender_in_deny_list" .invalidSourceAddress

/-- The event of a message. -/
def FirewallEvent.of (clock : Clock) (ctx : MessageContext) (eventType : FirewallEventType)
    (ruleName : Option String) (action : FirewallAction) : FirewallEvent where
  timestamp := clock.wall
  eventType := eventType
  ruleName := ruleName
  action := action
  source := ctx.source
  destination := ctx.destination
  senderId := ctx.senderId
  systemId := ctx.systemId
  contentPreview := String.ofList (ctx.content.toList.take 50)

/-- The type of the event that `log_result` logs. -/
def FirewallResult.eventType (result : FirewallResult) : FirewallEventType :=
  if result.allowed then
    match result.action with
    | .log => .logged
    | _ => .allowed
  else
    match result.action with
    | .quarantine => .quarantined
    | _ => .blocked

/-- Log result to event log. -/
def logResult (clock : Clock) (ctx : MessageContext) (result : FirewallResult) (log : FirewallEventLog) :
    FirewallEventLog :=
  log.log (.of clock ctx result.eventType result.matchedRule result.action)

section Check

variable (texts : Texts Rx Tz) (clock : Clock) (ctx : MessageContext)

/-- Apply a single rule. -/
def applyRule (rule : FirewallRule Rx Tz) (log : FirewallEventLog) : Option FirewallResult × FirewallEventLog :=
  if rule.ruleType.matches texts clock ctx then
    match rule.action with
    | .allow => (some .allow, log)
    | .block status => (some ⟨false, rule.action, some rule.name, some status⟩, log)
    | .log => (none, log)
    | .alarm => (none, log.log (.of clock ctx .alarm (some rule.name) rule.action))
    | .quarantine => (some ⟨false, rule.action, some rule.name, some .systemError⟩, log)
    | .modify => (some ⟨true, rule.action, some rule.name, none⟩, log)
  else (none, log)

/-- A loop over rules, which skips the disabled ones and those that do not apply. -/
def applyRules (applies : FirewallRule Rx Tz → Bool) :
    List (FirewallRule Rx Tz) → FirewallEventLog → Option FirewallResult × FirewallEventLog
  | [], log => (none, log)
  | rule :: rules, log =>
    if !rule.enabled then applyRules applies rules log
    else if !applies rule then applyRules applies rules log
    else
      match applyRule texts clock ctx rule log with
      | (some result, log) => (some result, log)
      | (none, log) => applyRules applies rules log

/-- The rules of the client: its own settings do not ask whom a rule is for. -/
def applyEsmeRules (rules : List (FirewallRule Rx Tz)) (log : FirewallEventLog) :
    Option FirewallResult × FirewallEventLog :=
  applyRules texts clock ctx (fun _ => true) rules log

/-- A rule for one client is for no other. -/
def FirewallRule.appliesTo (systemId : String) (rule : FirewallRule Rx Tz) : Bool :=
  rule.esmeId.all fun cid => cid = systemId

/-- The rules for everyone. -/
def applyGlobalRules (rules : List (FirewallRule Rx Tz)) (log : FirewallEventLog) :
    Option FirewallResult × FirewallEventLog :=
  applyRules texts clock ctx (FirewallRule.appliesTo ctx.systemId) rules log

/-- The result of the default action. -/
def defaultResult : FirewallAction → FirewallResult
  | .allow => .allow
  | .block status => .blocked "default_block" status
  | _ => .allow

/-- What `check` finds, before it logs it. -/
def Firewall.find (self : Firewall Rx Tz) : FirewallResult × FirewallEventLog :=
  match self.checkMessage ctx with
  | some result => (result, self.eventLog)
  | none =>
    let settings := self.getEsmeSettings ctx.systemId
    match settings.bind fun s => s.checkLists ctx with
    | some result => (result, self.eventLog)
    | none =>
      match applyEsmeRules texts clock ctx ((settings.map fun s => s.rules).getD []) self.eventLog with
      | (some result, log) => (result, log)
      | (none, log) =>
        match applyGlobalRules texts clock ctx self.rules log with
        | (some result, log) => (result, log)
        | (none, log) => (defaultResult self.config.defaultAction, log)

/-- Check message against firewall rules. -/
def Firewall.check (self : Firewall Rx Tz) : FirewallResult × Firewall Rx Tz :=
  if !self.config.enabled then (.allow, self)
  else
    let (result, log) := self.find texts clock ctx
    (result, { self with eventLog := logResult clock ctx result log })

end Check

end Smppd.Filter
