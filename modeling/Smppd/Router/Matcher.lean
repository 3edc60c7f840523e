/-
  MATCHERS (`src/router/matcher.rs`): which messages a route is for.

  Two crates outside the repository are parameters, about which nothing is assumed: `regex`
  (`Regexes`: compile a pattern, match a text) and `chrono` with `chrono-tz` (`Zones`: parse the name
  of a timezone, read the wall clock there).  Texts are compared as lists of characters.

  A condition that is set asks for its field: a message that does not bring the field does not match
  (`demanded`).  Minutes are added up in `u32`, which wraps.
-/
import Smppd.Lib.Fallible
import Smppd.Config.Types
import Smppd.Forwarder.Dlr

set_option linter.unusedVariables false

namespace Smppd.Router

open Smppd.Store Smppd.Forwarder Fallible

/-- What the `regex` crate knows about compiled patterns `Rx`. -/
structure Regexes (Rx : Type) where
  /-- `Regex::new`, with the text of its error. -/
  compile : String → Except String Rx
  /-- `Regex::is_match`. -/
  isMatch : Rx → String → Bool

/-- Weekday. -/
inductive Weekday where
  | mon
  | tue
  | wed
  | thu
  | fri
  | sat
  | sun
  deriving DecidableEq

/-- The name by which a window lists the day. -/
def Weekday.dayName : Weekday → String
  | .mon => "Mon"
  | .tue => "Tue"
  | .wed => "Wed"
  | .thu => "Thu"
  | .fri => "Fri"
  | .sat => "Sat"
  | .sun => "Sun"

/-- What a clock on the wall shows. -/
structure LocalTime where
  weekday : Weekday
  hour : UInt32
  minute : UInt32

/-- What `chrono` and `chrono-tz` know about timezones `Tz`. -/
structure Zones (Tz : Type) where
  /-- `str::parse::<Tz>`. -/
  parse : String → Option Tz
  utc : Tz
  /-- `with_timezone`. -/
  read : Tz → SystemTime → LocalTime

variable {Rx Tz : Type}

/-! ## One condition -/

/-- Type of matcher. -/
inductive MatcherKind where
  | any
  | pre (text : String)
  | regex (pattern : String)
  | exact (text : String)
  deriving DecidableEq

/-- A prefix to match; the empty one matches anything. -/
def MatcherKind.ofPrefix (text : String) : MatcherKind := if text.isEmpty then .any else .pre text

/-- `MatcherKind::from_condition`. -/
def MatcherKind.fromCondition (cond : MatchCondition) : Option MatcherKind :=
  if cond.any = some true then some .any
  else
    match cond.exact, cond.regex, cond.pre with
    | some text, _, _ => some (.exact text)
    | none, some pattern, _ => some (.regex pattern)
    | none, none, some text => some (.ofPrefix text)
    | none, none, none => none

/-- A compiled matcher for efficient matching. -/
structure CompiledMatcher (Rx : Type) where
  kind : MatcherKind
  regex : Option Rx

/-- `CompiledMatcher::new`. -/
def CompiledMatcher.new (regexes : Regexes Rx) (kind : MatcherKind) :
    Except String (CompiledMatcher Rx) :=
  match kind with
  | .regex pattern => do
    let regex ← regexes.compile pattern
    pure ⟨kind, some regex⟩
  | _ => pure ⟨kind, none⟩

/-- `CompiledMatcher::matches`. -/
def CompiledMatcher.matches (regexes : Regexes Rx) (self : CompiledMatcher Rx) (value : String) : Bool :=
  match self.kind with
  | .any => true
  | .pre text => text.toList.isPrefixOf value.toList
  | .regex _ => (self.regex.map fun r => regexes.isMatch r value).getD false
  | .exact text => value = text

/-! ## Time windows -/

/-- The `parse_time` of `time_window_matches`. -/
def parseTime (s : String) : Option (UInt32 × UInt32) :=
  match s.toList.splitOn ':' with
  | [h, m] => do
    let h ← parseU32 (String.ofList h)
    let m ← parseU32 (String.ofList m)
    pure (h, m)
  | _ => none

/-- `eq_ignore_ascii_case`. -/
def eqIgnoreAsciiCase (a b : String) : Bool := a.toList.map Char.toLower = b.toList.map Char.toLower

/-- `time_window_matches`, at a reading of the wall clock. -/
def timeWindowMatches (zones : Zones Tz) (wall : SystemTime) (window : TimeWindow) : Bool :=
  let tz := (zones.parse window.timezone).getD zones.utc
  let now := zones.read tz wall
  if !window.days.any fun d => eqIgnoreAsciiCase d now.weekday.dayName then false
  else
    match parseTime window.start, parseTime window.stop with
    | some (startH, startM), some (endH, endM) =>
      let currentMins := now.hour * 60 + now.minute
      let startMins := startH * 60 + startM
      let endMins := endH * 60 + endM
      if startMins ≤ endMins then startMins ≤ currentMins && currentMins < endMins
      else startMins ≤ currentMins || currentMins < endMins
    | _, _ => false

/-! ## All conditions of a route -/

/-- Context for route matching with all available message fields. -/
structure MatchContext where
  destination : String
  source : Option String := none
  senderId : Option String := none
  systemId : Option String := none
  serviceType : Option String := none
  esmClass : Option UInt8 := none
  dataCoding : Option UInt8 := none

/-- A route matcher with multiple conditions. -/
structure Matcher (Rx : Type) where
  destination : Option (CompiledMatcher Rx) := none
  source : Option (CompiledMatcher Rx) := none
  senderId : Option (CompiledMatcher Rx) := none
  systemId : Option String := none
  serviceType : Option String := none
  esmClass : Option UInt8 := none
  dataCoding : Option (List UInt8) := none
  timeWindow : Option TimeWindow := none

/-- A condition, if there is one, on a field that the message must then have. -/
def demanded {α β : Type} (test : α → β → Bool) : Option α → Option β → Bool
  | none, _ => true
  | some cond, some value => test cond value
  | some _, none => false

/-- `matches_context`. -/
def Matcher.matchesContext (regexes : Regexes Rx) (zones : Zones Tz) (wall : SystemTime)
    (self : Matcher Rx) (ctx : MatchContext) : Bool :=
  (self.destination.all fun m => m.matches regexes ctx.destination)
    && demanded (fun m value => m.matches regexes value) self.source ctx.source
    && demanded (fun m value => m.matches regexes value) self.senderId ctx.senderId
    && demanded (fun expected actual => actual = expected) self.systemId ctx.systemId
    && demanded (fun expected actual => actual = expected) self.serviceType ctx.serviceType
    && demanded (fun expected actual => actual = expected) self.esmClass ctx.esmClass
    && demanded (fun allowed actual => allowed.contains actual) self.dataCoding ctx.dataCoding
    && self.timeWindow.all (timeWindowMatches zones wall)

/-! ## What compiles -/

/-- The pattern of a kind that has one compiles. -/
def MatcherKind.Compiles (regexes : Regexes Rx) : MatcherKind → Prop
  | .regex pattern => ∃ r, regexes.compile pattern = .ok r
  | _ => True

theorem exists_compiled_eq_ok (regexes : Regexes Rx) (kind : MatcherKind) :
    (∃ m, CompiledMatcher.new regexes kind = .ok m) ↔ kind.Compiles regexes := by
  cases kind with
  | regex pattern =>
    constructor
    · rintro ⟨m, hm⟩
      obtain ⟨r, hr, -⟩ := bind_eq_ok.mp hm
      exact ⟨r, hr⟩
    · rintro ⟨r, hr⟩
      exact ⟨_, bind_eq_ok.mpr ⟨r, hr, rfl⟩⟩
  | _ => exact iff_of_true ⟨_, rfl⟩ trivial

end Smppd.Router
