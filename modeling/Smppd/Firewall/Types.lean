/-
  The CONFIGURATION of the rule firewall (`src/firewall/types.rs`), and what a rule is asked about
  (`src/firewall/context.rs`): chains of rules, conditions as trees, actions, the evaluation context and the
  result of an evaluation.

  Addresses `Ip` stay abstract, and so does everything the code only asks a library about (`Platform`): regular
  expressions, networks, the parsing and printing of addresses, lower case, wall clocks.  Nothing is assumed
  about any of it.
-/
import Smppd.Lib.Table
import Smppd.Filter.Auth
import Smppd.Router.Matcher

namespace Smppd.Firewall

open Smppd.Store

/-- What the libraries know about compiled patterns `Rx`, timezones `Tz`, addresses `Ip` and networks `Net`. -/
structure Platform (Rx Tz Ip Net : Type) where
  regexes : Router.Regexes Rx
  zones : Router.Zones Tz
  nets : Filter.IpNets Ip Net
  /-- `str::parse::<IpAddr>`. -/
  parseIp : String → Option Ip
  /-- `Display for IpAddr`. -/
  ipText : Ip → String
  /-- `str::to_lowercase`. -/
  toLowercase : String → String

/-- A platform that supports no patterns and no networks, and on which it is noon. -/
def Platform.bare : Platform Empty Unit String Empty where
  regexes := ⟨fun _ => .error "unsupported", nofun⟩
  zones := ⟨fun _ => some (), (), fun _ _ => ⟨.mon, 12, 0⟩⟩
  nets := ⟨fun _ => none, nofun⟩
  parseIp := some
  ipText := fun ip => ip
  toLowercase := fun text => String.ofList (text.toList.map Char.toLower)

/-! ## Conditions -/

/-- String match type. -/
inductive StringMatchType where
  | exact
  | pre
  | suffix
  | contains
  | regex
  | list
  deriving DecidableEq

/-- String matcher configuration. -/
structure StringMatcherConfig where
  matchType : StringMatchType := .exact
  value : Option String := none
  pattern : Option String := none
  list : Option String := none
  negate : Bool := false

/-- Content match type. -/
inductive ContentMatchType where
  | contains
  | exact
  | regex
  | keywords
  deriving DecidableEq

/-- Content matcher configuration. -/
structure ContentMatcherConfig where
  matchType : ContentMatchType := .contains
  value : Option String := none
  pattern : Option String := none
  list : Option String := none
  caseInsensitive : Bool := true
  negate : Bool := false

/-- IP match type. -/
inductive IpMatchType where
  | exact
  | cidr
  | list
  deriving DecidableEq

/-- IP matcher configuration. -/
structure IpMatcherConfig where
  matchType : IpMatchType := .exact
  value : Option String := none
  list : Option String := none
  negate : Bool := false

/-- Key for rate limiting. -/
inductive RateKey where
  | systemId
  | source
  | destination
  | clientIp
  | senderId
  deriving DecidableEq

/-- The derived `Debug` of a key. -/
def RateKey.debugName : RateKey → String
  | .systemId => "SystemId"
  | .source => "Source"
  | .destination => "Destination"
  | .clientIp => "ClientIp"
  | .senderId => "SenderId"

/-- Condition configuration. -/
inductive ConditionConfig where
  | source (matcher : StringMatcherConfig)
  | destination (matcher : StringMatcherConfig)
  | senderId (matcher : StringMatcherConfig)
  | systemId (matcher : StringMatcherConfig)
  | content (matcher : ContentMatcherConfig)
  | contentLength (min max : Option Nat) (negate : Bool)
  | esmClass (value : UInt8) (mask : Option UInt8)
  | protocolId (value : UInt8)
  | dataCoding (value : UInt8)
  | clientIp (matcher : IpMatcherConfig)
  | tlsEnabled (value : Bool)
  | rate (key : RateKey) (window : Duration) (threshold : UInt64)
  | time (start stop : String) (timezone : Option String)
  | dayOfWeek (days : List UInt8)
  | not (condition : ConditionConfig)
  | and (conditions : List ConditionConfig)
  | or (conditions : List ConditionConfig)
  | plugin (name : String)

/-! ## Rules and chains -/

/-- Log level for logging actions. -/
inductive LogLevel where
  | trace
  | debug
  | info
  | warn
  | error

/-- Action configuration. -/
inductive ActionConfig where
  | accept
  | drop
  | reject (status : UInt32) (reason : Option String)
  /-- Log and continue. -/
  | log (level : LogLevel) (message : Option String) (thenAction : Option ActionConfig)
  | rateLimit (key : RateKey) (window : Duration) (limit : UInt64) (status : UInt32)
  | modify (setSource setDestination setContent prependContent appendContent : Option String)
  | jump (chain : String)
  | return
  | quarantine
  | delay (duration : Duration)
  /-- Set metadata. -/
  | mark (key value : String)
  | plugin (name action : String)

/-- Policy for chains/default. -/
inductive Policy where
  | accept
  | drop
  | reject
  deriving DecidableEq

/-- Chain type. -/
inductive ChainType where
  | input
  | output
  | forward
  deriving DecidableEq

/-- Rule configuration. -/
structure RuleConfig where
  name : Option String := none
  enabled : Bool := true
  conditions : List ConditionConfig := []
  action : ActionConfig

/-- Chain configuration. -/
structure ChainConfig where
  name : String
  chainType : ChainType := .input
  /-- Lower = evaluated first. -/
  priority : Int := 0
  policy : Policy := .accept
  rules : List RuleConfig := []

/-- Firewall configuration. -/
structure FirewallConfig where
  enabled : Bool := true
  /-- Default policy when no rules match. -/
  defaultPolicy : Policy := .accept
  chains : List ChainConfig := []

/-- Firewall error types: those that compiling can return. -/
inductive FirewallError where
  | invalidCondition (text : String)
  | regexError (text : String)
  deriving DecidableEq

/-! ## What is evaluated -/

/-- Context for firewall rule evaluation. -/
structure EvaluationContext (Ip : Type) where
  source : String
  destination : String
  senderId : Option String := none
  systemId : String
  content : String
  contentLength : Nat
  esmClass : UInt8 := 0
  protocolId : UInt8 := 0
  dataCoding : UInt8 := 0
  clientIp : Option Ip := none
  tlsEnabled : Bool := false

variable {Rx Tz Ip Net : Type}

/-- `EvaluationContext::new`. -/
def EvaluationContext.new (source destination systemId content : String) : EvaluationContext Ip :=
  { source := source, destination := destination, systemId := systemId, content := content,
    contentLength := content.utf8ByteSize }

/-- `get_rate_key`. -/
def EvaluationContext.getRateKey (platform : Platform Rx Tz Ip Net) (ctx : EvaluationContext Ip) : RateKey → String
  | .systemId => ctx.systemId
  | .source => ctx.source
  | .destination => ctx.destination
  | .clientIp => (ctx.clientIp.map platform.ipText).getD ""
  | .senderId => ctx.senderId.getD ctx.source

/-- Result of firewall evaluation. -/
inductive EvaluationResult where
  | accept
  | drop
  | reject (status : UInt32) (reason : Option String)
  | quarantine
  | modify (source destination content : Option String)
  /-- Continue to next chain/rule. -/
  | continue
  deriving DecidableEq

/-- `is_terminal`. -/
def EvaluationResult.isTerminal : EvaluationResult → Bool
  | .continue => false
  | .modify _ _ _ => false
  | _ => true

end Smppd.Firewall
